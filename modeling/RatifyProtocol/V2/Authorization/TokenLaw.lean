import Mathlib.Data.Int.LeastGreatest
import RatifyProtocol.V2.Authorization.Granted
import RatifyProtocol.V2.Delegation.RoundTrip
import RatifyProtocol.V2.FinalizationRuns
set_option autoImplicit false

/-!
# Authorization: the law of a token

A token of a sealed claim starts closed, with the times that the claim has sealed.  An allow
that it hands to the claim store has passed every check of every stage, whatever calls the
token has seen.
-/

namespace RatifyProtocol.V2

open Foundation

variable {P : Primitives} {archive : ZoneArchive} {sealed : ExpectedChallengeStateV2}
  {b₀ : ProofBundleV2} {ns : String} {epoch now claimedAt : Int} {claim : V2ChallengeClaim}
  {owner : Bytes} {log : List TokenCall} {t : V2EvaluationToken}

theorem validV2Timestamp_of_current {now issuedAt expiresAt maxAge futureSkew : Int}
    (h : v2ChallengeTimeCurrent now issuedAt expiresAt maxAge futureSkew = true) :
    validV2Timestamp now = true := by
  rw [v2ChallengeTimeCurrent] at h
  split at h
  · cases h
  rename_i hvalid
  simp only [Bool.or_eq_true, Bool.not_eq_true', not_or, Bool.not_eq_false] at hvalid
  exact hvalid.1.1

/-- The claim is sealed only under a skew within its bounds. -/
theorem skew_of_sealChallengeClaim (h : sealChallengeClaim P sealed b₀ ns epoch now = .ok claim) :
    0 ≤ sealed.futureSkew ∧ sealed.futureSkew ≤ v2MaxFutureSkewSeconds := by
  rw [sealChallengeClaim] at h
  obtain ⟨_, -, h⟩ := bind_eq_ok_iff.mp h
  obtain ⟨_, -, h⟩ := bind_eq_ok_iff.mp h
  obtain ⟨_, hvalid, -⟩ := bind_eq_ok_iff.mp h
  obtain ⟨-, -, hanswers⟩ := validateProofBundleV2Preflight_eq_ok (withContext_eq_ok_iff.mp hvalid)
  exact hanswers.skew

theorem timed_ofClaim (h : sealChallengeClaim P sealed b₀ ns epoch now = .ok claim) :
    (V2EvaluationToken.ofClaim sealed claim claimedAt owner).Timed where
  skew := skew_of_sealChallengeClaim h
  claimed := validV2Timestamp_of_current

theorem closed_ofClaim : Closed (V2EvaluationToken.ofClaim sealed claim claimedAt owner) :=
  closed_of_status ⟨by simp [V2EvaluationToken.ofClaim, TokenMut.initial],
    by simp [V2EvaluationToken.ofClaim, TokenMut.initial]⟩

/-- Only an authorized evaluation is sealed as an allow. -/
theorem authorized_of_allow {status reason : String}
    (h : terminalDecisionForV2Evaluation status reason = some "allow") :
    status = "authorized_agent" := by
  by_contra hstatus
  rw [terminalDecisionForV2Evaluation] at h
  simp only [if_neg hstatus] at h
  split_ifs at h <;> simp at h

/-- What a token hands to the claim store as an allow. -/
theorem authorized_of_submission {rateView cancelled : Bool} {token : TokenState} {payload : Payload}
    {submission : Submission}
    {next : V2StoreResult Bool → Interaction Submission (V2StoreResult Bool)
      (Except FinalizeFailure Bool × TokenState)} {reason identity : String}
    (h : finalizeClaimProofBundleV2Inner P rateView cancelled token payload = .call submission next)
    (hallow : bodyOutcome submission.payload.receiptBody.1 = some ("allow", reason, identity)) :
    token.m.evaluationStatus = "authorized_agent" ∧ 0 < token.m.allowValidUntil
      ∧ submission.allowValidUntil = token.m.allowValidUntil := by
  rw [finalizeClaimProofBundleV2Inner] at h
  split at h
  · cases h
  rename_i decision hcheck
  obtain ⟨-, hadmitted⟩ := checkFinalization_eq_ok_iff.mp hcheck
  obtain ⟨rfl, -⟩ := Interaction.call.inj h
  obtain ⟨identity', hbody⟩ := bodyOutcome_of_matches hadmitted.matched
  obtain ⟨rfl, -⟩ := Prod.mk.inj (Option.some.inj (hbody.symm.trans hallow))
  exact ⟨authorized_of_allow hadmitted.terminal, hadmitted.horizon, rfl⟩

/-! ## Stages that go through -/

variable {b : ProofBundleV2} {o : V2LocalAuthorizationOptions} {a : V2LocalAuthorizationAssessment}
  {aggregated : V2StatusAssessment} {ms : List V2AudienceMembership} {result : V2AudienceAssessment}
  {aggregate : List V2CertificateStatusCheck → V2Result V2StatusAssessment}

/-- A token whose evaluation waits for a stage. -/
structure Awaiting (t₀ t : V2EvaluationToken) (a : V2LocalAuthorizationAssessment) : Prop where
  same : SameToken t₀ t
  pending : t.pending = some a
  complete : t.evaluationComplete = true
  time : t.evaluatedAt = t₀.claimedAt
  hash : a.bundleHash = t₀.expected.bundleHash
  scope : a.requiredScope = t₀.expected.requiredScope
  cleared : a.localPolicyFailure = none

variable {t₀ : V2EvaluationToken}

theorem Awaiting.binds (h : Awaiting t₀ t a) : t.binds a = true := by
  rw [V2EvaluationToken.binds, h.same, h.hash, h.scope]
  simp

/-- A stage that goes on with the same proof. -/
theorem Awaiting.settle (h : Awaiting t₀ t a) {a' : V2LocalAuthorizationAssessment}
    (hstatus : a'.status = "pending_external_checks") (hhash : a'.bundleHash = a.bundleHash)
    (hscope : a'.requiredScope = a.requiredScope)
    (hcleared : a'.localPolicyFailure = a.localPolicyFailure) : Awaiting t₀ (t.settle a') a' where
  same := h.same.settle a'
  pending := pending_settle h.complete hstatus
  complete := h.complete
  time := h.time
  hash := hhash.trans h.hash
  scope := hscope.trans h.scope
  cleared := hcleared.trans h.cleared

/-- The first evaluation of an examined proof that is cleared. -/
theorem awaiting_evaluate (htimed : t₀.Timed) (hunused : t₀.used = false)
    (hid : protocolClaimIdV2 P t₀.expected.verifierNamespace t₀.expected.replayEpoch
      t₀.expected.value = .ok t₀.claimId)
    (hproof : t₀.proofDigest = t₀.expected.bundleHash) (howner : t₀.ownerToken.length = 32)
    (hexamined : Examined P b o t₀) (hcleared : Cleared archive b o t₀) :
    Awaiting t₀ (t₀.evaluate P archive b o).2
      ((pendingV2LocalAssessment archive b o t₀).claimed t₀) := by
  have hbound : (!reads (protocolClaimIdV2 P t₀.expected.verifierNamespace t₀.expected.replayEpoch
        t₀.expected.value) (fun id => id == t₀.claimId)
      || t₀.proofDigest != t₀.expected.bundleHash || decide (t₀.ownerToken.length ≠ 32)) = false := by
    simp [hid, reads, hproof, howner]
  have heval : evaluateLocalStarted P archive b o t₀
      = (pendingV2LocalAssessment archive b o t₀, t₀.claimedAt) := by
    obtain ⟨-, heq⟩ | ⟨hnot, -⟩ :=
      evaluateLocalStarted_cases htimed P archive b o
    · exact heq
    · exact absurd hexamined hnot
  have hstep : (t₀.evaluate P archive b o).2 = { t₀ with
      m := { t₀.m with
        evaluationStatus := "pending_external_checks"
        evaluationReason := "external_checks_required" }
      pendingAssessment := some ((pendingV2LocalAssessment archive b o t₀).claimed t₀)
      used := true, evaluatedAt := t₀.claimedAt, evaluationComplete := true } := by
    rw [V2EvaluationToken.evaluate, hbound, hunused, heval]
    rfl
  rw [hstep]
  exact
    { same := rfl, pending := rfl, complete := rfl, time := rfl, hash := rfl
      scope := hexamined.sealedProof.scope.2
      cleared := localFailure_eq_none_iff.mpr hcleared }

/-- A current status leaves the evaluation to what is deferred. -/
theorem Awaiting.status (h : Awaiting t₀ t a) (haggregate : aggregate a.statusChecks = .ok aggregated)
    (hcurrent : aggregated.assessment = "current") :
    (a.deferred = [] ∧ (t.afterStatus aggregate).2.m.evaluationStatus = "authorized_agent")
      ∨ ∃ a', Awaiting t₀ (t.afterStatus aggregate).2 a' ∧ a'.statusAssessment = "current"
        ∧ a'.deferred = a.deferred ∧ a.deferred ≠ [] := by
  have hresolve : resolveStatus a aggregated = .ok (if a.deferred.isEmpty then
      (a.withStatus aggregated).authorize "proof, status, and local authorization checks passed"
    else (a.withStatus aggregated).pending "deferred_policy_checks_required"
      "status is current; deferred audience or rate checks remain") := by
    have hlocal : (a.withStatus aggregated).localPolicyFailure = none := h.cleared
    rw [resolveStatus, hcurrent]
    simp only [hlocal, combinableWithAudienceV2]
    cases hempty : a.deferred.isEmpty with
    | true =>
      have hdeferred : (a.withStatus aggregated).deferred.isEmpty = true := hempty
      simp [hdeferred]
    | false =>
      have hdeferred : (a.withStatus aggregated).deferred.isEmpty = false := hempty
      simp [hdeferred]
  have hstep : (t.afterStatus aggregate).2 = t.settle (if a.deferred.isEmpty then
      (a.withStatus aggregated).authorize "proof, status, and local authorization checks passed"
    else (a.withStatus aggregated).pending "deferred_policy_checks_required"
      "status is current; deferred audience or rate checks remain") := by
    rw [V2EvaluationToken.afterStatus, h.pending]
    simp only [h.binds, Bool.not_true, Bool.false_eq_true, if_false, haggregate, ok_bind, hresolve]
  rw [hstep]
  by_cases hempty : a.deferred.isEmpty = true
  · rw [if_pos hempty]
    exact .inl ⟨List.isEmpty_iff.mp hempty, rfl⟩
  · rw [if_neg hempty]
    exact .inr ⟨_, h.settle rfl rfl rfl rfl, hcurrent, rfl,
      fun hnil => hempty (List.isEmpty_iff.mpr hnil)⟩

/-- An audience that passes leaves the evaluation to the rates. -/
theorem Awaiting.audience (h : Awaiting t₀ t a) (hcurrent : a.statusAssessment = "current")
    (hresult : evaluateReceiverAudience a.deferred t₀.expected.expectedReceiverId ms t₀.claimedAt
      t₀.futureSkew = .ok result) (hpassed : result.status = .passed) :
    (a.deferred.filter (fun d => !d.isAudience) = []
        ∧ (t.afterAudience ms).2.m.evaluationStatus = "authorized_agent")
      ∨ ∃ a', Awaiting t₀ (t.afterAudience ms).2 a' ∧ a'.statusAssessment = "current"
        ∧ a'.deferred = a.deferred.filter (fun d => !d.isAudience) ∧ a'.deferred ≠ [] := by
  have hready : t.pending.filter (fun a => a.statusAssessment == "current"
      && (a.localPolicyFailure.isNone
        || combinableWithAudienceV2 a.localPolicyFailure a.deferred)) = some a := by
    rw [h.pending, Option.filter_some, if_pos]
    simp [hcurrent, h.cleared]
  have hevaluated : evaluateReceiverAudience a.deferred t.expected.expectedReceiverId ms
      t.evaluatedAt t.futureSkew = .ok result := by
    rw [h.time, h.same]
    exact hresult
  have hstep : (t.afterAudience ms).2 = t.settle (resolveAudience a result) := by
    rw [V2EvaluationToken.afterAudience, hready]
    simp only [h.binds, Bool.not_true, Bool.false_eq_true, if_false, hevaluated]
  have hlocal : (a.withAudience result).localPolicyFailure = none := h.cleared
  rw [hstep, resolveAudience]
  simp only [hlocal, hpassed, ne_eq, not_true_eq_false, if_false]
  split
  · rename_i hempty
    exact .inl ⟨List.isEmpty_iff.mp hempty, rfl⟩
  · rename_i hsome
    refine .inr ⟨_, h.settle rfl rfl rfl rfl, hcurrent, rfl, fun hnil => hsome ?_⟩
    exact List.isEmpty_iff.mpr hnil

/-- A batch that is reserved authorizes the evaluation. -/
theorem Awaiting.rate (h : Awaiting t₀ t a) (hcurrent : a.statusAssessment = "current")
    (hrates : ∀ d ∈ a.deferred, d.kind = constraintMaxRate) (hsome : t₀.rateBatch ≠ [])
    (hbatch : buildV2RateReservationBatchInner a.deferred = .ok t₀.rateBatch) :
    ((t.afterRate false .reserving).answered (some (.ok ()))).2.m.evaluationStatus
      = "authorized_agent" := by
  have hready : t.pending.filter (fun a => a.statusAssessment == "current"
      && a.localPolicyFailure.isNone) = some a := by
    rw [h.pending, Option.filter_some, if_pos]
    simp [hcurrent, h.cleared]
  have hsealed : t.rateBatch = t₀.rateBatch := by rw [h.same]
  have hcheck : t.checkRate = .ok a := by
    have hbound : (!t.binds a || t.rateBatch.isEmpty) = false := by
      simpa [h.binds, hsealed] using hsome
    have hkinds : (a.deferred.any fun d => d.kind != constraintMaxRate) = false := by
      simpa using hrates
    have hsame : (!reads (buildV2RateReservationBatchInner a.deferred) fun batch =>
        batch == t.rateBatch) = false := by
      simp [hbatch, reads, hsealed]
    rw [V2EvaluationToken.checkRate, hready]
    simp only [hbound, hkinds, hsame, Bool.false_eq_true, if_false]
  rw [V2EvaluationToken.afterRate, hcheck]
  rfl

/-! ## The calls of an honest caller -/

/-- A rate that a bundle signs is in its batch. -/
theorem SignedBatch.ne_nil {batch : List V2RateReservation} (h : SignedBatch b batch)
    (hbounded : ∀ x ∈ b.signedRates, RateBounded x.2 x.1.windowS) {p : PlacedConstraint}
    (hp : p ∈ b.placed) (hkind : p.constraint.kind = constraintMaxRate) : batch ≠ [] := by
  set key : RateKey := ⟨p.issuerId, p.certId, p.constraint.windowS⟩ with hkey
  have hsigned : (key, p.constraint.count) ∈ b.signedRates := ⟨p, hp, hkind, rfl⟩
  obtain ⟨n, hn, hle⟩ := Int.exists_least_of_bdd (P := fun n => (key, n) ∈ b.signedRates)
    ⟨0, fun n hn => le_of_lt (hbounded _ hn).count.1⟩ ⟨_, hsigned⟩
  intro hnil
  have hmem : rateReservation (key, n) ∈ batch := (h.least _).mpr ⟨hn, fun m hm => hle m hm⟩
  rw [hnil] at hmem
  cases hmem

theorem exists_placed_of_deferred {d : V2DeferredConstraint}
    (hd : d ∈ deferredConstraints archive b o t) :
    ∃ p ∈ b.placed, p.constraint.kind = d.kind := by
  rw [deferredConstraints, evaluateV2LocalConstraints_deferred, List.mem_filterMap] at hd
  obtain ⟨p, hp, hpostponed⟩ := hd
  obtain ⟨-, -, heq⟩ := postponed_eq_some hpostponed
  exact ⟨p, hp, by rw [heq]⟩

/-- Whether a constraint of a kind is signed. -/
def ProofBundleV2.signs (b : ProofBundleV2) (kind : String) : Bool :=
  b.placed.any fun p => p.constraint.kind == kind

/-- The calls after the status: the audience where one is signed, and the reservation where a
rate is. -/
def laterCalls (b : ProofBundleV2) (ms : List V2AudienceMembership) : List TokenCall :=
  (if b.signs constraintReceiverAudience then [.audience ms] else [])
    ++ if b.signs constraintMaxRate then [.rate false .reserving (some (.ok ()))] else []

/-- The calls of an honest caller. -/
def honestCalls (b : ProofBundleV2) (o : V2LocalAuthorizationOptions)
    (aggregate : List V2CertificateStatusCheck → V2Result V2StatusAssessment)
    (ms : List V2AudienceMembership) : List TokenCall :=
  [.evaluate b o, .status aggregate] ++ laterCalls b ms

/-- What is signed for a later stage is deferred, and nothing else. -/
theorem signs_iff (hcleared : Cleared archive b o t) {kind : String}
    (hkind : kind = constraintMaxRate ∨ kind = constraintReceiverAudience) :
    b.signs kind = true ↔ ∃ d ∈ deferredConstraints archive b o t, d.kind = kind := by
  simp only [ProofBundleV2.signs, List.any_eq_true, beq_iff_eq]
  constructor
  · rintro ⟨p, hp, rfl⟩
    exact mem_deferred_of_placed hcleared hp hkind
  · rintro ⟨d, hd, rfl⟩
    exact exists_placed_of_deferred hd

/-- The sealed batch is the one the rate stage builds, before and after the audience. -/
structure RatesSealed (archive : ZoneArchive) (b : ProofBundleV2) (o : V2LocalAuthorizationOptions)
    (t : V2EvaluationToken) : Prop where
  signed : b.signs constraintMaxRate = true → t.rateBatch ≠ []
  all : buildV2RateReservationBatchInner (deferredConstraints archive b o t) = .ok t.rateBatch
  rest : buildV2RateReservationBatchInner ((deferredConstraints archive b o t).filter
    fun d => d.kind != constraintReceiverAudience) = .ok t.rateBatch

theorem ratesSealed_ofClaim (hchain : SignedChain P b)
    (hbatch : signedV2RateReservationBatch b = .ok claim.rateBatch) :
    RatesSealed archive b o (.ofClaim sealed claim claimedAt owner) := by
  obtain ⟨batch, hsigned, hleast, hsame⟩ := hchain.exists_batch
  obtain rfl : claim.rateBatch = batch := Except.ok.inj (hbatch.symm.trans hsigned)
  obtain ⟨hall, hrest⟩ := hchain.build_deferred
    (V2EvaluationToken.localInputs archive (.ofClaim sealed claim claimedAt owner) o) hsame
  refine { signed := fun hsigns => ?_, all := hall, rest := hrest }
  simp only [ProofBundleV2.signs, List.any_eq_true, beq_iff_eq] at hsigns
  obtain ⟨p, hp, hkind⟩ := hsigns
  exact hleast.ne_nil hchain.rateBounded hp hkind

/-- After a current status, the audience and the rates end the evaluation authorized. -/
theorem Awaiting.settles (h : Awaiting t₀ t a) (hstatus : a.statusAssessment = "current")
    (hdeferred : a.deferred = deferredConstraints archive b o t₀) (hne : a.deferred ≠ [])
    (hcleared : Cleared archive b o t₀) (hrates : RatesSealed archive b o t₀)
    (haudience : b.signs constraintReceiverAudience = true →
      ∃ result, evaluateReceiverAudience (deferredConstraints archive b o t₀)
          t₀.expected.expectedReceiverId ms t₀.claimedAt t₀.futureSkew = .ok result
        ∧ result.status = .passed) :
    ∃ t', TokenRun P archive t (laterCalls b ms) t'
      ∧ t'.m.evaluationStatus = "authorized_agent" := by
  have hrate : b.signs constraintMaxRate = true ↔
      ∃ d ∈ deferredConstraints archive b o t₀, d.kind = constraintMaxRate :=
    signs_iff hcleared (.inl rfl)
  have hreceiver : b.signs constraintReceiverAudience = true ↔
      ∃ d ∈ deferredConstraints archive b o t₀, d.kind = constraintReceiverAudience :=
    signs_iff hcleared (.inr rfl)
  by_cases hsigns : b.signs constraintReceiverAudience = true
  · obtain ⟨result, hresult, hpassed⟩ := haudience hsigns
    have hrun : TokenRun P archive t [.audience ms] (t.afterAudience ms).2 := .single rfl
    obtain ⟨hnone, hauth⟩ | ⟨a', hawaiting, hstatus', hdeferred', hsome⟩ :=
      h.audience hstatus (hdeferred ▸ hresult) hpassed
    · have hunrated : ¬ b.signs constraintMaxRate = true := by
        rw [hrate]
        rintro ⟨d, hd, hkind⟩
        rw [hdeferred, List.filter_eq_nil_iff] at hnone
        refine hnone d hd ?_
        rw [V2DeferredConstraint.isAudience, hkind]
        decide
      refine ⟨_, ?_, hauth⟩
      rw [laterCalls, if_pos hsigns, if_neg hunrated]
      exact hrun
    rw [hdeferred] at hdeferred'
    have hkinds : ∀ d ∈ a'.deferred,
        d ∈ deferredConstraints archive b o t₀ ∧ d.kind = constraintMaxRate := by
      intro d hd
      rw [hdeferred', List.mem_filter] at hd
      refine ⟨hd.1, (kind_of_deferred hd.1).resolve_right fun hkind => ?_⟩
      have hnot := hd.2
      rw [V2DeferredConstraint.isAudience, hkind] at hnot
      simp at hnot
    obtain ⟨d, hd⟩ := List.exists_mem_of_ne_nil _ hsome
    have hrated : b.signs constraintMaxRate = true := hrate.mpr ⟨d, hkinds d hd⟩
    have hlast := hrun.snoc (i := .rate false .reserving (some (.ok ()))) (u :=
      (((t.afterAudience ms).2.afterRate false .reserving).answered (some (.ok ()))).2) rfl
    refine ⟨_, ?_, hawaiting.rate hstatus' (fun d hd => (hkinds d hd).2) (hrates.signed hrated)
      (hdeferred' ▸ hrates.rest)⟩
    rw [laterCalls, if_pos hsigns, if_pos hrated]
    exact hlast
  · have hkinds : ∀ d ∈ a.deferred, d.kind = constraintMaxRate := by
      intro d hd
      rw [hdeferred] at hd
      exact (kind_of_deferred hd).resolve_right fun hkind => hsigns (hreceiver.mpr ⟨d, hd, hkind⟩)
    obtain ⟨d, hd⟩ := List.exists_mem_of_ne_nil _ hne
    have hrated : b.signs constraintMaxRate = true := hrate.mpr ⟨d, hdeferred ▸ hd, hkinds d hd⟩
    refine ⟨_, ?_, h.rate hstatus hkinds (hrates.signed hrated) (hdeferred ▸ hrates.all)⟩
    rw [laterCalls, if_neg hsigns, if_pos hrated]
    exact .single rfl

/-- The calls of an honest caller end the evaluation of a cleared proof authorized. -/
theorem exists_honestRun (htimed : t₀.Timed) (hunused : t₀.used = false)
    (hid : protocolClaimIdV2 P t₀.expected.verifierNamespace t₀.expected.replayEpoch
      t₀.expected.value = .ok t₀.claimId)
    (hproof : t₀.proofDigest = t₀.expected.bundleHash) (howner : t₀.ownerToken.length = 32)
    (hexamined : Examined P b o t₀) (hcleared : Cleared archive b o t₀)
    (hrates : RatesSealed archive b o t₀) (hstatus : aggregate (statusChecks b) = .ok aggregated)
    (hcurrent : aggregated.assessment = "current")
    (haudience : b.signs constraintReceiverAudience = true →
      ∃ result, evaluateReceiverAudience (deferredConstraints archive b o t₀)
          t₀.expected.expectedReceiverId ms t₀.claimedAt t₀.futureSkew = .ok result
        ∧ result.status = .passed) :
    ∃ t, TokenRun P archive t₀ (honestCalls b o aggregate ms) t
      ∧ t.m.evaluationStatus = "authorized_agent" := by
  have hawaiting : Awaiting t₀ (t₀.evaluate P archive b o).2
      ((pendingV2LocalAssessment archive b o t₀).claimed t₀) :=
    awaiting_evaluate htimed hunused hid hproof howner hexamined hcleared
  have hrun : TokenRun P archive t₀ [.evaluate b o] (t₀.evaluate P archive b o).2 := .single rfl
  generalize (t₀.evaluate P archive b o).2 = t₁ at hawaiting hrun
  replace hrun := hrun.snoc (i := .status aggregate) (u := (t₁.afterStatus aggregate).2) rfl
  obtain ⟨hnil, hauth⟩ | ⟨a, hnext, hcurrent', hdeferred, hne⟩ := hawaiting.status hstatus hcurrent
  · have hnone : ∀ kind, kind = constraintMaxRate ∨ kind = constraintReceiverAudience →
        ¬ b.signs kind = true := by
      intro kind hkind
      rw [signs_iff hcleared hkind]
      rintro ⟨d, hd, -⟩
      replace hnil : deferredConstraints archive b o t₀ = [] := hnil
      rw [hnil] at hd
      cases hd
    refine ⟨_, ?_, hauth⟩
    rw [honestCalls, laterCalls, if_neg (hnone _ (.inr rfl)), if_neg (hnone _ (.inl rfl))]
    exact hrun
  · obtain ⟨t, hlater, hauth⟩ := hnext.settles hcurrent' hdeferred (hdeferred ▸ hne) hcleared
      hrates haudience
    exact ⟨t, hrun.append hlater, hauth⟩

/-! ## A rated proof -/

/-- A policy that asks for no context. -/
def unboundPolicy : V2ContextPolicy where
  profile := "profile"
  requireBound := false
  requiredFields := []
  expectedSessionContext := []
  digest := "sha384:" ++ hexEncode (List.replicate 48 0)
  bound := by simp
  unbound := fun _ => rfl
  named := validPrefixedDigest_hexEncode List.length_replicate

def ratedHash : String := "sha384:" ++ hexEncode (List.replicate 48 0)

/-- The challenge that `limitedBundle` answers. -/
def ratedSealed : ExpectedChallengeStateV2 where
  value := List.replicate 32 0
  issuedAt := 100
  expiresAt := 200
  verifierNamespace := "namespace"
  replayEpoch := 1
  verifierId := hexEncode (1 :: List.replicate 31 0)
  expectedAgentId := ""
  expectedAgentPublicKey := none
  expectedReceiverId := "r"
  expectedSessionContext := none
  contextPolicy := some unboundPolicy
  requiredScope := "data:read"
  bundleHash := ratedHash
  issuerIds := [hexEncode (4 :: List.replicate 31 0)]
  futureSkew := 5
  maxAge := 60
  contextPolicyDigest := unboundPolicy.digest
  noContextPolicy := false
  evaluatorRefs := []
  evaluators := { entries := .empty, timeout := "0ns" }

def ratedOptions : V2LocalAuthorizationOptions where
  futureSkewSeconds := 5
  requiredScope := "data:read"
  trustedRootId := hexEncode (4 :: List.replicate 31 0)
  trustedRootKey := tabledKey 4
  trustConfigured := true
  context :=
    { requestedAmountMicros := 0, requestedCurrency := "", hasAmount := false
      requestedResourceId := "", requestedPath := "", hasResource := false
      extensionCounts := .empty, extensionValues := .empty }
  tzdbVersion := ""
  contextPolicy := none
  expectedChallenge := none

/-- A receiver in the trust domain `d`, by a membership of at most a minute. -/
def domainLimit : ConstraintV2 :=
  { ConstraintV2.ofKind constraintReceiverAudience with
    params := some
      { entries := [("exact_receiver_ids", .array []), ("max_membership_age_seconds", .int 60),
          ("trust_domain_ids", .array [.str "d"])]
        ordered := by
          refine .object _ (by decide) fun e he => ?_
          obtain rfl | he := List.mem_cons.mp he
          · exact .array _ (by simp)
          obtain rfl | he := List.mem_cons.mp he
          · exact .int _
          rw [List.mem_singleton.mp he]
          exact .array _ fun x hx => List.mem_singleton.mp hx ▸ .str _ } }

def domainLink : AudienceLink where
  exactReceiverIds := []
  trustDomainIds := ["d"]
  delegationIndex := 0
  constraintIndex := 1
  age := 60

/-- A bundle that signs a rate and a receiver audience. -/
def limitedBundle : ProofBundleV2 := ratedBundle [ratedConstraint 5, domainLimit]

def domainNode : JNode :=
  .mk (.obj [("params", .mk (.obj [("exact_receiver_ids", .mk (.arr []) 0 0),
      ("max_membership_age_seconds", .mk (.num (String.ofList (encodeInt 60))) 0 0),
      ("trust_domain_ids", .mk (.arr [.mk (.str "d") 0 0]) 0 0)]) 0 0),
    ("type", .mk (.str constraintReceiverAudience) 0 0)]) 0 0

theorem parsed_domainNode : Parsed 12 domainNode := by
  have hparams : Parsed 11 (.mk (.obj [("exact_receiver_ids", .mk (.arr []) 0 0),
      ("max_membership_age_seconds", .mk (.num (String.ofList (encodeInt 60))) 0 0),
      ("trust_domain_ids", .mk (.arr [.mk (.str "d") 0 0]) 0 0)]) 0 0) := by
    refine .obj 10 _ 0 0 (by decide) fun f hf => ?_
    simp only [List.mem_cons, List.not_mem_nil, or_false] at hf
    obtain rfl | rfl | rfl := hf
    · exact .arr 9 _ 0 0 (by simp)
    · exact .int 10 60 0 0 (by decide)
    · exact .arr 9 _ 0 0 fun x hx => List.mem_singleton.mp hx ▸ .str 9 "d" 0 0
  refine .obj 11 _ 0 0 (by decide) fun f hf => ?_
  obtain rfl | hf := List.mem_cons.mp hf
  · exact hparams
  · exact List.mem_singleton.mp hf ▸ .str 11 _ 0 0

theorem readable_limited : ∀ k ∈ [ratedConstraint 5, domainLimit], Readable k := by
  intro k hk
  obtain rfl | hk := List.mem_cons.mp hk
  · exact ⟨ratedNode 5, parsed_ratedNode (by decide), rfl⟩
  · exact List.mem_singleton.mp hk ▸ ⟨domainNode, parsed_domainNode, rfl⟩

theorem signedChain_limited : SignedChain (counting []) limitedBundle :=
  signedChain_rated (by decide) readable_limited

theorem plainBundle_limited : PlainBundle (counting []) limitedBundle where
  valid := bundleValid_rated (by decide) readable_limited
  cert := ⟨_, _, rfl, ⟨rfl, fun k hk => (readable_limited k hk).nests, by decide⟩, rfl⟩
  agentKey := keyLengths_of_keyIdV2 ((accepting_counting []).keyIdV2 3)
  streamId := rfl

theorem bundleHashV2_rated : bundleHashV2 (counting []) limitedBundle = .ok ratedHash := by
  obtain ⟨wire, -, -, hencoded⟩ := plainBundle_limited.exists_wire
  rw [bundleHashV2_of_encode hencoded, bundleHashOfBytes, ratedHash]
  exact congrArg (fun d => (Except.ok ("sha384:" ++ hexEncode d) : V2Result String))
    (tableDigest_nil _)

theorem validateProofBundleV2Preflight_rated :
    validateProofBundleV2Preflight (counting []) limitedBundle ratedSealed.toExpectedChallengeV2
      (claimTimeInputs ratedSealed "namespace" 1 110) = .ok () := by
  have hverified := verifyProofBundleV2Signatures_eq_ok_iff.mpr signedChain_limited
  simp only [validateProofBundleV2Preflight, hverified]
  decide +kernel

theorem exists_ratedClaim : ∃ claim, sealChallengeClaim (counting []) ratedSealed limitedBundle
    "namespace" 1 110 = .ok claim := by
  obtain ⟨digest, hdigest⟩ : ∃ digest, challengeClaimDigestV2 (counting []) ratedSealed.value
      = .ok digest := ⟨_, rfl⟩
  obtain ⟨id, hid⟩ : ∃ id, protocolClaimIdV2 (counting []) ratedSealed.verifierNamespace
      ratedSealed.replayEpoch ratedSealed.value = .ok id := ⟨_, rfl⟩
  obtain ⟨batch, hbatch, -⟩ := signedChain_limited.exists_batch
  have hpolicy : (ratedSealed.contextPolicy.isNone && !ratedSealed.noContextPolicy) = false := rfl
  have hhash : (!reads (bundleHashV2 (counting []) limitedBundle)
      fun h => h == ratedSealed.bundleHash) = false := by
    rw [bundleHashV2_rated]
    exact congrArg (!·) (beq_self_eq_true ratedHash)
  rw [sealChallengeClaim]
  simp only [hpolicy, hhash, validateProofBundleV2Preflight_rated, hdigest, hid, hbatch, refuseAs,
    withContext, classify, ok_bind]
  exact ⟨_, rfl⟩

theorem examined_rated {claim : V2ChallengeClaim} {owner : Bytes}
    (hclaim : sealChallengeClaim (counting []) ratedSealed limitedBundle "namespace" 1 110
      = .ok claim) :
    Examined (counting []) limitedBundle ratedOptions (.ofClaim ratedSealed claim 110 owner) := by
  have hsealed := sealChallengeClaim_eq_ok hclaim
  have hproof := hsealed.proof.trans hsealed.fields.1
  refine { claimTime := ?_, challenge := ?_, sealedProof := ?_, chain := ?_ }
  · show v2ChallengeTimeCurrent 110 100 200 60 5 = true
    decide
  · intro e he
    cases he
  · exact
      { scope := ⟨rfl, rfl⟩, skew := rfl
        hash := bundleHashV2_rated.trans (congrArg _ hproof.symm)
        answers := ⟨rfl, rfl, rfl⟩
        scopeForm := show validateRequiredScopeV2 "data:read" = .ok () from rfl
        chain := signedChain_limited
        policy := fun p hp => by cases hp }
  · refine { root := ⟨ratedCert _, rfl, rfl, rfl, rfl⟩, current := ?_, scopes := ?_, delegates := ?_ }
    · intro c hc
      rw [List.mem_singleton.mp hc]
      have hmax : (1000 : Int) ≤ v2MaxTimestampSeconds
          ∧ (1000 : Int) ≤ 0 + v2MaxDelegationLifetimeSeconds := by decide
      exact ⟨⟨le_rfl, show (0 : Int) ≤ 110 + 5 by decide⟩,
        ⟨show (0 : Int) < 1000 by decide, hmax.2⟩, show (110 : Int) < 1000 by decide, hmax.1⟩
    · intro c hc
      rw [List.mem_singleton.mp hc]
      show validateScopesV2 ["data:read"] = .ok ()
      rfl
    · intro parent hparent
      cases hparent

theorem Readable.exists_canonicalJson {k : ConstraintV2} (h : Readable k) :
    ∃ encoded, k.canonicalJson = .ok encoded := by
  obtain ⟨v, hv⟩ := h.exists_toCj
  obtain ⟨-, -, encoded, -, hencoded, -⟩ := ConstraintV2.toCj_eq_ok hv
  exact ⟨encoded, bind_eq_ok_iff.mpr ⟨v, hv, hencoded⟩⟩

/-- The constraints that the local stage puts off, with their texts. -/
def limitedDeferred (rateText audienceText : Bytes) : List V2DeferredConstraint :=
  let issuerId := hexEncode (4 :: List.replicate 31 0)
  [{ delegationIndex := 0, constraintIndex := 0, issuerId, certId := "cert"
     kind := constraintMaxRate, canonicalJson := rateText },
    { delegationIndex := 0, constraintIndex := 1, issuerId, certId := "cert"
      kind := constraintReceiverAudience, canonicalJson := audienceText }]

theorem exists_verdict_limited : ∃ rateText audienceText,
    domainLimit.canonicalJson = .ok audienceText
      ∧ ∀ s, limitedBundle.placed.map (PlacedConstraint.verdict s)
        = (limitedDeferred rateText audienceText).map LocalVerdict.deferred := by
  obtain ⟨rateText, hrate⟩ := (readable_limited _ List.mem_cons_self).exists_canonicalJson
  obtain ⟨audienceText, haudience⟩ :=
    (readable_limited domainLimit (by simp)).exists_canonicalJson
  exact ⟨rateText, audienceText, haudience, fun s => congrArg₂ (fun v w => [v, w])
    (verdict_staged (.inl rfl) hrate) (verdict_staged (.inr rfl) haudience)⟩

theorem exists_deferred_rated : ∃ rateText audienceText,
    domainLimit.canonicalJson = .ok audienceText
      ∧ ∀ t, deferredConstraints (.error "") limitedBundle ratedOptions t
        = limitedDeferred rateText audienceText := by
  obtain ⟨rateText, audienceText, haudience, hverdict⟩ := exists_verdict_limited
  refine ⟨rateText, audienceText, haudience, fun t => ?_⟩
  have hmap := congrArg (List.filterMap LocalVerdict.postponed)
    (hverdict (t.localInputs (.error "") ratedOptions))
  rw [List.filterMap_map, List.filterMap_map] at hmap
  rw [deferredConstraints, evaluateV2LocalConstraints_deferred]
  exact hmap

/-- The link of an audience that a certificate signs. -/
theorem audienceLink_of_canonicalJson {c : ConstraintV2} {d : V2DeferredConstraint}
    {seen : List (Nat × Nat)} (hjson : c.canonicalJson = .ok d.canonicalJson)
    (hkind : c.kind = constraintReceiverAudience)
    (hage : 0 < audienceAge c.schema ∧ audienceAge c.schema ≤ v2MaxAudienceMembershipAgeSeconds)
    (hnew : seen.contains d.position = false) :
    audienceLink seen d = .ok
      { exactReceiverIds := audienceList c.schema "exact_receiver_ids"
        trustDomainIds := audienceList c.schema "trust_domain_ids"
        delegationIndex := d.delegationIndex, constraintIndex := d.constraintIndex
        age := audienceAge c.schema } := by
  obtain ⟨n, hn, hread⟩ := fromNode_of_canonicalJson hjson
  have hvalid : validateV2ConstraintFields n = .ok () := by
    rw [ConstraintV2.fromNode] at hread
    obtain ⟨_, hvalid, -⟩ := bind_eq_ok_iff.mp hread
    exact hvalid
  have hcanonical : (!reads c.schema.canonicalJson fun encoded => encoded == d.canonicalJson)
      = false := by
    rw [ConstraintV2.canonicalJson_schema hjson]
    simp [reads]
  have htype : (c.schema.kind != constraintReceiverAudience) = false := by
    simp [ConstraintV2.schema_kind, hkind]
  have hlimit : (!(audienceList c.schema "trust_domain_ids").isEmpty
      && decide (audienceAge c.schema ≤ 0
        ∨ audienceAge c.schema > v2MaxAudienceMembershipAgeSeconds)) = false := by
    rw [Bool.and_eq_false_iff, decide_eq_false_iff_not]
    exact .inr (by omega)
  rw [audienceLink]
  refine bind_eq_ok_iff.mpr ⟨n, withContext_eq_ok_iff.mpr hn, ?_⟩
  refine bind_eq_ok_iff.mpr ⟨(), withContext_eq_ok_iff.mpr hvalid, ?_⟩
  refine refuseIf_bind_eq_ok_iff.mpr ⟨hnew, ?_⟩
  refine bind_eq_ok_iff.mpr ⟨_, withContext_eq_ok_iff.mpr hread, ?_⟩
  exact refuseIf_bind_eq_ok_iff.mpr ⟨hcanonical,
    refuseIf_bind_eq_ok_iff.mpr ⟨htype, refuseIf_bind_eq_ok_iff.mpr ⟨hlimit, rfl⟩⟩⟩

theorem cleared_rated {claim : V2ChallengeClaim} {owner : Bytes} :
    Cleared (.error "") limitedBundle ratedOptions (.ofClaim ratedSealed claim 110 owner) where
  scope := by
    have hscopes : effectiveScopes limitedBundle = ["data:read"] := rfl
    rw [hscopes]
    exact List.mem_singleton.mpr rfl
  context := ⟨unboundPolicy, rfl, ⟨fun h => by cases h⟩⟩
  constraints := by
    intro p hp
    obtain ⟨rateText, audienceText, -, hverdict⟩ := exists_verdict_limited
    have hmem := List.mem_map_of_mem (f := PlacedConstraint.verdict (V2EvaluationToken.localInputs
      (.error "") (.ofClaim ratedSealed claim 110 owner) ratedOptions)) hp
    rw [hverdict] at hmem
    obtain ⟨d, -, hd⟩ := List.mem_map.mp hmem
    rw [← hd]
    rfl
  windows := ⟨0, rfl⟩

/-- The membership of the receiver passes, until it is a minute old. -/
theorem audience_rated {t : V2EvaluationToken} :
    ∃ result, evaluateReceiverAudience (deferredConstraints (.error "") limitedBundle ratedOptions t)
        "r" [domainMembership 1] 110 5 = .ok result ∧ result.status = .passed := by
  obtain ⟨rateText, audienceText, haudience, hdeferred⟩ := exists_deferred_rated
  have hlinks : audienceLinks [] (limitedDeferred rateText audienceText)
      = .ok [domainLink] := by
    rw [limitedDeferred, audienceLinks, if_pos rate_ne_audience, audienceLinks,
      if_neg (not_not.mpr rfl),
      audienceLink_of_canonicalJson haudience rfl ⟨by decide, by decide⟩ rfl]
    rfl
  have hpassed : assessLinks "r" 110 5 [domainLink] [domainMembership 1]
      = .ok { status := .passed, evidenceDigests := [(domainMembership 1).evidenceDigest]
              freshUntil := 150 } := by
    decide +kernel
  have hinputs : ValidAudienceInputs "r" 110 5 := ⟨by decide, rfl, by decide, by decide⟩
  rw [hdeferred, evaluateReceiverAudience_eq, hlinks, ok_bind, hpassed]
  exact ⟨_, refuseIf_bind_eq_ok_iff.mpr ⟨validAudienceInputs_iff.mp hinputs, rfl⟩, rfl⟩

/-- A status that is current until `150`. -/
def ratedStatus : V2StatusAssessment :=
  { assessment := "current", reason := "", evidence := [], freshUntil := 150 }

def ratedAggregate (_ : List V2CertificateStatusCheck) : V2Result V2StatusAssessment :=
  .ok ratedStatus

theorem ratedAggregate_current (checks : List V2CertificateStatusCheck) :
    ratedAggregate checks = .ok ratedStatus ∧ ratedStatus.assessment = "current" := ⟨rfl, rfl⟩

/-! ## The law -/

/-- Whatever calls the token of a claim has seen, in whatever order: an evaluation that ends
authorized, and an allow that is handed to the claim store, rest on one proof that has passed
every check of every stage, until the greatest bound of all its deadlines. -/
theorem authorization_law
    (hclaim : sealChallengeClaim P sealed b₀ ns epoch now = .ok claim)
    (hrun : TokenRun P archive (.ofClaim sealed claim claimedAt owner) log t) :
    (t.m.evaluationStatus = "authorized_agent" →
      ∃ b o, Granted P archive (.ofClaim sealed claim claimedAt owner) log b o t.m.allowValidUntil)
    ∧ ∀ (rateView cancelled : Bool) (payload : Payload) (submission : Submission)
        (next : V2StoreResult Bool → Interaction Submission (V2StoreResult Bool)
          (Except FinalizeFailure Bool × TokenState)) (reason identity : String),
      finalizeClaimProofBundleV2Inner P rateView cancelled t.toTokenState payload
          = .call submission next →
        bodyOutcome submission.payload.receiptBody.1 = some ("allow", reason, identity) →
        0 < submission.allowValidUntil
          ∧ ∃ b o, Granted P archive (.ofClaim sealed claim claimedAt owner) log b o
              submission.allowValidUntil := by
  have hinv := hrun.inv (timed_ofClaim hclaim) closed_ofClaim
  refine ⟨hinv.granted, ?_⟩
  intro rateView cancelled payload submission next reason identity hcall hallow
  obtain ⟨hauth, hpos, hhorizon⟩ := authorized_of_submission hcall hallow
  obtain ⟨b, o, hgranted⟩ := hinv.granted hauth
  exact ⟨hhorizon ▸ hpos, b, o, hhorizon ▸ hgranted⟩

theorem authorization_law_rated : ∃ claim t, TokenRun (counting []) (.error "")
      (.ofClaim ratedSealed claim 110 (List.replicate 32 0))
      (honestCalls limitedBundle ratedOptions ratedAggregate [domainMembership 1]) t
    ∧ ∃ b o, Granted (counting []) (.error "") (.ofClaim ratedSealed claim 110 (List.replicate 32 0))
        (honestCalls limitedBundle ratedOptions ratedAggregate [domainMembership 1]) b o
        t.m.allowValidUntil := by
  obtain ⟨claim, hclaim⟩ := exists_ratedClaim
  have hsealed := sealChallengeClaim_eq_ok hclaim
  obtain ⟨t, hrun, hauth⟩ := exists_honestRun (timed_ofClaim hclaim) rfl hsealed.identity
    (hsealed.proof.trans hsealed.fields.1) List.length_replicate (examined_rated hclaim)
    cleared_rated (ratesSealed_ofClaim signedChain_limited hsealed.batch)
    (ratedAggregate_current _).1 (ratedAggregate_current []).2 fun _ => audience_rated
  exact ⟨claim, t, hrun, (authorization_law hclaim hrun).1 hauth⟩

/-- A proof that passes every check of every stage is authorized by the calls of an honest
caller. -/
theorem authorization_complete {trusted : V2StatusAssessment} (ms : List V2AudienceMembership)
    (hclaim : sealChallengeClaim P sealed b ns epoch now = .ok claim) (howner : owner.length = 32)
    (hexamined : Examined P b o (.ofClaim sealed claim claimedAt owner))
    (hcleared : Cleared archive b o (.ofClaim sealed claim claimedAt owner))
    (hstatus : aggregate (statusChecks b) = .ok trusted) (hcurrent : trusted.assessment = "current")
    (haudience : b.signs constraintReceiverAudience = true →
      ∃ result, evaluateReceiverAudience
          (deferredConstraints archive b o (.ofClaim sealed claim claimedAt owner))
          sealed.expectedReceiverId ms claimedAt sealed.futureSkew = .ok result
        ∧ result.status = .passed) :
    ∃ t, TokenRun P archive (.ofClaim sealed claim claimedAt owner) (honestCalls b o aggregate ms) t
      ∧ t.m.evaluationStatus = "authorized_agent" := by
  have hsealed := sealChallengeClaim_eq_ok hclaim
  exact exists_honestRun (timed_ofClaim hclaim) rfl hsealed.identity
    (hsealed.proof.trans hsealed.fields.1) howner hexamined hcleared
    (ratesSealed_ofClaim hexamined.sealedProof.chain hsealed.batch) hstatus hcurrent haudience

theorem authorization_complete_rated : ∃ claim t, TokenRun (counting []) (.error "")
      (.ofClaim ratedSealed claim 110 (List.replicate 32 0))
      (honestCalls limitedBundle ratedOptions ratedAggregate [domainMembership 1]) t
    ∧ t.m.evaluationStatus = "authorized_agent" := by
  obtain ⟨claim, hclaim⟩ := exists_ratedClaim
  obtain ⟨t, hrun, hauth⟩ := authorization_complete [domainMembership 1] hclaim
    List.length_replicate (examined_rated hclaim) cleared_rated (ratedAggregate_current _).1
    (ratedAggregate_current []).2 fun _ => audience_rated
  exact ⟨claim, t, hrun, hauth⟩

end RatifyProtocol.V2
