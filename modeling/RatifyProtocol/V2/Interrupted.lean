import RatifyProtocol.V2.Progress
import RatifyProtocol.V2.Receipt.RoundTrip
set_option autoImplicit false

/-!
# Claims: which bodies finalize

A prepared body passes the finalization checks of a claim exactly when the
receipt it was prepared from carries the sealed values, and the interrupted
result of a claim exists exactly when its receipt is valid and fits.
-/

namespace RatifyProtocol.V2

open Foundation

/-! ## What a body states -/

theorem textMember_of_view {fields : List (String × CJ)} {o : Obj} (h : ObjView fields o)
    {k s : String} (hk : (k, .str s) ∈ fields) : textMember o k = some s := by
  obtain ⟨m, hm, hd⟩ := h.get k (.str s) hk
  cases hd
  simp only [textMember, hm, JNode.v]

/-- A prepared body states the outcome of its receipt. -/
theorem bodyOutcome_body {r : VerificationReceiptV2} {b : Bytes}
    (h : verificationReceiptV2Body r = .ok b) :
    bodyOutcome b = some (r.decision, r.decisionReason, r.identityStatus) := by
  obtain ⟨hbody, -, hb⟩ := verificationReceiptV2Body_eq_ok_iff.mp h
  have hmembers : receiptCj r .body = .obj (receiptShapeMembers (bodyAtGenesis r) .body) := rfl
  have hdoc := wireDocument_receipt (positionValid_atGenesis r)
    (bodyValid_atGenesis_iff.mpr hbody) .body
  rw [hmembers] at hb
  obtain ⟨n, hn, hd⟩ := parseJson_canonical hdoc.fits hb
  obtain ⟨o, ho, hview⟩ := objView_of_denotes hd hdoc.keys
  have hfields : n.v = .obj o := by
    cases hd
    cases ho
    rfl
  have htext {k s : String} (hk : (k, CJ.str s) ∈ receiptMembers r) :
      textMember o k = some s :=
    textMember_of_view hview (mem_receiptShapeMembers (r := bodyAtGenesis r) hk)
  have hdecision : textMember o "decision" = some r.decision := htext (by simp [receiptMembers])
  have hreason : textMember o "decision_reason" = some r.decisionReason :=
    htext (by simp [receiptMembers])
  have hidentity : textMember o "identity_status" = some r.identityStatus :=
    htext (by simp [receiptMembers])
  simp only [bodyOutcome, hn, hfields, hdecision, hreason, hidentity]
  rfl

/-- The policy digest a body of this claim has to carry. -/
def sealedPolicyDigest (claim : V2ChallengeClaim) (contextAssessment : String) : Option String :=
  if contextAssessment ≠ "not_evaluated" ∧ claim.contextPolicyDigest ≠ "" then
    some claim.contextPolicyDigest
  else none

/-- A receipt carries the sealed values of a claim. -/
structure CarriesClaim (claim : V2ChallengeClaim) (r : VerificationReceiptV2) : Prop where
  verifierId : r.verifierId = claim.verifierId
  agentId : r.agentId = claim.agentId
  bundleHash : r.bundleHash = claim.bundleHash
  issuerIds : r.issuerIds = sortedUnique claim.issuerIds
  requiredScope : r.requiredScope = claim.requiredScope
  policyDigest : r.contextPolicyDigest = sealedPolicyDigest claim r.contextAssessment
  evaluators : r.constraintEvaluators = claim.constraintEvaluators

/-- A prepared body finalizes a claim exactly when its receipt carries the sealed
values and the terminal result is the canonical form of its outcome. -/
theorem validateV2FinalizationPayload_body_iff {claim : V2ChallengeClaim}
    {r : VerificationReceiptV2} {terminal b : Bytes} (h : verificationReceiptV2Body r = .ok b) :
    validateV2FinalizationPayload claim terminal b = .ok () ↔
      CarriesClaim claim r
        ∧ terminalResultJson r.decision r.decisionReason r.identityStatus = .ok terminal := by
  have hdecode := decodeVerificationReceiptBodyV2_body h
  have hmatch : terminalPayloadMatchesV2 terminal b r.decision r.decisionReason = true ↔
      terminalResultJson r.decision r.decisionReason r.identityStatus = .ok terminal := by
    simp only [terminalPayloadMatchesV2, bodyOutcome_body h, beq_self_eq_true, Bool.true_and]
    cases terminalResultJson r.decision r.decisionReason r.identityStatus <;> simp
  have hpolicy : (if (r.atShape .body).contextAssessment ≠ "not_evaluated"
        ∧ claim.contextPolicyDigest ≠ "" then some claim.contextPolicyDigest else none)
      = sealedPolicyDigest claim r.contextAssessment := rfl
  simp only [validateV2FinalizationPayload, classify_eq_ok_iff, hdecode, ok_bind,
    refuseIf_bind_eq_ok_iff, refuseIf_eq_ok_iff, bne_eq_false_iff_eq, Bool.not_eq_false', hpolicy]
  rw [show (r.atShape .body).decision = r.decision from rfl,
    show (r.atShape .body).decisionReason = r.decisionReason from rfl, hmatch]
  constructor
  · rintro ⟨h₁, h₂, h₃, h₄, h₅, h₆, h₇, h₈⟩
    exact ⟨⟨h₁, h₂, h₃, h₄, h₅, h₆, h₇⟩, h₈⟩
  · rintro ⟨⟨h₁, h₂, h₃, h₄, h₅, h₆, h₇⟩, h₈⟩
    exact ⟨h₁, h₂, h₃, h₄, h₅, h₆, h₇, h₈⟩

/-! ## The interrupted receipt -/

/-- The sealed values that every receipt of a claim repeats are well formed. -/
structure SealedWellFormed (claim : V2ChallengeClaim) : Prop where
  verifierId : validV2Id claim.verifierId = true
  agentId : claim.agentId = "" ∨ validV2Id claim.agentId = true
  bundleHash : validPrefixedDigest claim.bundleHash = true
  issuerIds : ∀ id ∈ claim.issuerIds, validV2Id id = true
  requiredScope : requiredScopeV2 claim.requiredScope = .ok ()
  evaluators : validConstraintEvaluatorRefsV2 claim.constraintEvaluators = true
  delegated : claim.constraintEvaluators ≠ [] → claim.issuerIds ≠ []

/-- The receipt of the claim can state the progress. -/
structure ProgressStatable (claim : V2ChallengeClaim) (p : V2EvaluationProgress) : Prop where
  reached : claim.issuerIds = [] → p.trustAssessment = "not_evaluated"
  evidence : sortedEvidence p.statusEvidence (sortedUnique claim.issuerIds) claim.verifierId
    claim.agentId = true
  evaluated : p.statusAssessment ∈ ["current", "revoked", "stale"] → p.statusEvidence ≠ []
  history : p.statusAssessment ∈ ["current", "stale"] →
    hasAcceptedStatusHistoryPerIssuer p.statusEvidence (sortedUnique claim.issuerIds) = true

variable {claim : V2ChallengeClaim} {verifiedAt : Int} {p : V2EvaluationProgress}

theorem validateReceiptIssuers_interrupted_iff (hp : ProgressValid p) :
    validateReceiptIssuers (interruptedReceipt claim verifiedAt p) = .ok () ↔
      (∀ id ∈ claim.issuerIds, validV2Id id = true)
        ∧ (claim.issuerIds = [] → p.trustAssessment = "not_evaluated")
        ∧ requiredScopeV2 claim.requiredScope = .ok () := by
  have hreached : ("evaluation_interrupted" == "evaluation_interrupted"
      && (sortedUnique claim.issuerIds).isEmpty
      && (p.trustAssessment != "not_evaluated" || p.statusAssessment != "not_evaluated"
        || p.contextAssessment != "not_evaluated" || !p.statusEvidence.isEmpty)) = false
      ↔ (claim.issuerIds = [] → p.trustAssessment = "not_evaluated") := by
    rw [beq_self_eq_true, Bool.true_and, Bool.and_eq_false_iff, List.isEmpty_eq_false_iff, ne_eq,
      sortedUnique_eq_nil, ← imp_iff_not_or]
    refine imp_congr_right fun _ => ?_
    constructor
    · intro h
      simp only [Bool.or_eq_false_iff, bne_eq_false_iff_eq] at h
      exact h.1.1.1
    · intro h
      obtain ⟨hstatus, hcontext, hevidence⟩ := hp.unstarted h
      simp [h, hstatus, hcontext, hevidence]
  simp only [validateReceiptIssuers, interruptedReceipt, refuseIf_bind_eq_ok_iff,
    withContext_eq_ok_iff, Bool.not_eq_false', sortedUniqueIds_sortedUnique, hreached]
  simp

theorem validateDecision_interrupted (hp : ProgressValid p) :
    validateDecision (interruptedReceipt claim verifiedAt p) = .ok () := by
  have htrust : (! ["trusted", "untrusted", "unavailable", "not_evaluated"].contains
      p.trustAssessment) = false := by
    have := hp.trust
    simp only [List.mem_cons, List.not_mem_nil, or_false] at this
    rcases this with h | h | h | h <;> rw [h] <;> rfl
  have hstatus : (! ["current", "revoked", "stale", "unavailable", "not_evaluated"].contains
      p.statusAssessment) = false := by
    have := hp.status
    simp only [List.mem_cons, List.not_mem_nil, or_false] at this
    rcases this with h | h | h | h | h <;> rw [h] <;> rfl
  have hcontext : (! ["bound", "not_required", "unbound", "unverified", "mismatch",
      "not_evaluated"].contains p.contextAssessment) = false
      ∧ (p.contextAssessment != "not_evaluated" && p.contextAssessment != "bound"
        && p.contextAssessment != "not_required") = false := by
    have := hp.context
    simp only [List.mem_cons, List.not_mem_nil, or_false] at this
    rcases this with h | h | h <;> rw [h] <;> exact ⟨rfl, rfl⟩
  have htrusted : (p.trustAssessment != "trusted" && (p.statusAssessment != "not_evaluated"
      || p.contextAssessment != "not_evaluated")) = false := by
    cases htrusted : p.trustAssessment != "trusted" with
    | false => rfl
    | true =>
      obtain ⟨hs, hc⟩ := hp.trusted (by simpa using htrusted)
      rw [hs, hc]
      rfl
  have hindeterminate :
      validateIndeterminate (interruptedReceipt claim verifiedAt p) = .ok () := by
    simp only [validateIndeterminate, indeterminateTuple, interruptedReceipt,
      refuseIf_bind_eq_ok_iff, refuseIf_eq_ok_iff, hcontext.2, htrusted]
    exact ⟨rfl, rfl⟩
  have hnotAllow : (interruptedReceipt claim verifiedAt p).decision ≠ "allow" :=
    show "indeterminate" ≠ "allow" by simp
  have hnotDeny : (interruptedReceipt claim verifiedAt p).decision ≠ "deny" :=
    show "indeterminate" ≠ "deny" by simp
  simp only [validateDecision, refuseIf_bind_eq_ok_iff, if_neg hnotAllow, if_neg hnotDeny]
  exact ⟨rfl, htrust, hstatus, hcontext.1, hindeterminate⟩

theorem validateReceiptAssessments_interrupted_iff (hp : ProgressValid p) :
    validateReceiptAssessments (interruptedReceipt claim verifiedAt p) = .ok () ↔
      sortedEvidence p.statusEvidence (sortedUnique claim.issuerIds) claim.verifierId
          claim.agentId = true
        ∧ (p.statusAssessment ∈ ["current", "revoked", "stale"] → p.statusEvidence ≠ [])
        ∧ (validConstraintEvaluatorRefsV2 claim.constraintEvaluators = true
          ∧ (claim.constraintEvaluators ≠ [] → claim.issuerIds ≠ []))
        ∧ (p.statusAssessment ∈ ["current", "stale"] →
          hasAcceptedStatusHistoryPerIssuer p.statusEvidence (sortedUnique claim.issuerIds)
            = true) := by
  have hpolicy : (p.contextPolicyDigest.any fun d => !validPrefixedDigest d) = false := by
    cases hd : p.contextPolicyDigest with
    | none => rfl
    | some d => simp [hp.digestValid d hd]
  have hevaluators : (!validConstraintEvaluatorRefsV2 claim.constraintEvaluators
      || (!claim.constraintEvaluators.isEmpty && (sortedUnique claim.issuerIds).isEmpty)) = false
      ↔ validConstraintEvaluatorRefsV2 claim.constraintEvaluators = true
        ∧ (claim.constraintEvaluators ≠ [] → claim.issuerIds ≠ []) := by
    simp [← sortedUnique_eq_nil]
  have hdigest : ((["not_evaluated", "unbound"].contains p.contextAssessment
      && p.contextPolicyDigest.isSome) || (["bound", "not_required", "mismatch"].contains
        p.contextAssessment && p.contextPolicyDigest.isNone)) = false := by
    have hctx := hp.context
    have hiff := hp.digest
    simp only [List.mem_cons, List.not_mem_nil, or_false] at hctx
    rcases hctx with h | h | h
    · rw [h, hiff.mp h]
      rfl
    · obtain ⟨d, hd⟩ := Option.ne_none_iff_exists'.mp (mt hiff.mpr (by simp [h]))
      rw [h, hd]
      rfl
    · obtain ⟨d, hd⟩ := Option.ne_none_iff_exists'.mp (mt hiff.mpr (by simp [h]))
      rw [h, hd]
      rfl
  have hevidence : (p.statusAssessment == "not_evaluated" && !p.statusEvidence.isEmpty)
      = false := by
    cases hstatus : p.statusAssessment == "not_evaluated" with
    | false => rfl
    | true => rw [hp.evidence (beq_iff_eq.mp hstatus)]; rfl
  have hgranted : (!sortedGranted []) = false := rfl
  simp only [validateReceiptAssessments, refuseIf_bind_eq_ok_iff]
  rw [validateDecision_interrupted hp]
  simp only [interruptedReceipt, hpolicy, hevaluators, hdigest, hevidence, hgranted, true_and,
    bne_self_eq_false, and_true, Bool.not_eq_false', Bool.and_eq_false_iff,
    List.isEmpty_eq_false_iff, ← List.contains_iff_mem]
  constructor
  · rintro ⟨h₁, h₂, h₃, h₄⟩
    refine ⟨h₁, fun h => ?_, h₃, fun h => ?_⟩
    · exact h₂.resolve_left (ne_false_of_eq_true h)
    · exact h₄.resolve_left (ne_false_of_eq_true h)
  · rintro ⟨h₁, h₂, h₃, h₄⟩
    refine ⟨h₁, ?_, h₃, ?_⟩
    · exact (Bool.eq_false_or_eq_true _).symm.imp_right h₂
    · exact (Bool.eq_false_or_eq_true _).symm.imp_right h₄

/-- Which interrupted receipts are valid. -/
theorem bodyValid_interrupted_iff (hp : ProgressValid p) :
    BodyValid (interruptedReceipt claim verifiedAt p) ↔
      validV2Timestamp verifiedAt = true ∧ SealedWellFormed claim ∧ ProgressStatable claim p := by
  rw [validV2Timestamp_iff]
  constructor
  · intro h
    obtain ⟨hids, hreached, hscope⟩ := (validateReceiptIssuers_interrupted_iff hp).mp h.issuers
    obtain ⟨hsorted, hevaluated, ⟨hrefs, hdelegated⟩, hhistory⟩ :=
      (validateReceiptAssessments_interrupted_iff hp).mp h.assessments
    exact
      ⟨h.verifiedAt,
        { verifierId := h.verifierId, agentId := h.agentId, bundleHash := h.bundleHash,
          issuerIds := hids, requiredScope := hscope, evaluators := hrefs,
          delegated := hdelegated },
        { reached := hreached, evidence := hsorted, evaluated := hevaluated,
          history := hhistory }⟩
  · rintro ⟨htime, hsealed, hstatable⟩
    exact
      { version := rfl
        verifiedAt := htime
        verifierId := hsealed.verifierId
        agentId := hsealed.agentId
        bundleHash := hsealed.bundleHash
        issuers := (validateReceiptIssuers_interrupted_iff hp).mpr
          ⟨hsealed.issuerIds, hstatable.reached, hsealed.requiredScope⟩
        assessments := (validateReceiptAssessments_interrupted_iff hp).mpr
          ⟨hstatable.evidence, hstatable.evaluated, ⟨hsealed.evaluators, hsealed.delegated⟩,
            hstatable.history⟩ }

/-! ## The interrupted result -/

theorem exists_terminalResultJson (decision reason identityStatus : String) :
    ∃ b, terminalResultJson decision reason identityStatus = .ok b := by
  apply @WireValue.exists_canonical 1
  refine .obj 0 _ ?_ ?_ ?_
  · simp
  · intro f hf
    simp only [List.mem_cons, List.not_mem_nil, or_false] at hf
    rcases hf with rfl | rfl | rfl <;> simp [wireByteFields]
  · intro f hf
    simp only [List.mem_cons, List.not_mem_nil, or_false] at hf
    rcases hf with rfl | rfl | rfl <;> exact .str _ _

/-- The interrupted result of the claim exists and finalizes it. -/
def InterruptedResultPasses (claim : V2ChallengeClaim) (verifiedAt : Int)
    (p : V2EvaluationProgress) : Prop :=
  ∃ terminal body, v2EvaluationInterruptedResult claim verifiedAt p = .ok (terminal, body)
    ∧ validateV2FinalizationPayload claim terminal body = .ok ()

/-- What a claim and its progress must satisfy to be recovered. -/
structure Recoverable (claim : V2ChallengeClaim) (verifiedAt : Int) (p : V2EvaluationProgress) :
    Prop where
  sealed : SealedWellFormed claim
  statable : ProgressStatable claim p
  policy : p.contextPolicyDigest = sealedPolicyDigest claim p.contextAssessment
  fits : WireFits (interruptedReceipt claim verifiedAt p)

theorem v2EvaluationInterruptedResult_eq_ok_iff {terminal body : Bytes} :
    v2EvaluationInterruptedResult claim verifiedAt p = .ok (terminal, body) ↔
      validV2Timestamp verifiedAt = true ∧ ProgressValid p
        ∧ verificationReceiptV2Body (interruptedReceipt claim verifiedAt p) = .ok body
        ∧ terminalResultJson "indeterminate" "evaluation_interrupted" "authorization_unverified"
          = .ok terminal := by
  rw [v2EvaluationInterruptedResult]
  cases htime : validV2Timestamp verifiedAt with
  | false => simp
  | true =>
    rw [if_neg (by simp)]
    simp only [bind_eq_ok_iff, classify_eq_ok_iff, validateV2EvaluationProgressInner_eq_ok_iff]
    constructor
    · rintro ⟨_, hp, b, hb, t, ht, heq⟩
      cases heq
      exact ⟨trivial, hp, hb, ht⟩
    · rintro ⟨-, hp, hb, ht⟩
      exact ⟨(), hp, body, hb, terminal, ht, rfl⟩

/-- The body of an interrupted result states the interruption. -/
theorem interruptedResult_decoded {terminal body : Bytes}
    (h : v2EvaluationInterruptedResult claim verifiedAt p = .ok (terminal, body)) :
    ∃ receipt, decodeVerificationReceiptBodyV2 body = .ok receipt
      ∧ receipt.decision = "indeterminate" ∧ receipt.decisionReason = "evaluation_interrupted" := by
  obtain ⟨-, -, hbody, -⟩ := v2EvaluationInterruptedResult_eq_ok_iff.mp h
  exact ⟨_, decodeVerificationReceiptBodyV2_body hbody, rfl, rfl⟩

/-- The sealed values an interrupted receipt carries by construction. -/
theorem carriesClaim_interrupted_iff :
    CarriesClaim claim (interruptedReceipt claim verifiedAt p) ↔
      p.contextPolicyDigest = sealedPolicyDigest claim p.contextAssessment :=
  ⟨fun h => h.policyDigest, fun h => ⟨rfl, rfl, rfl, rfl, rfl, h, rfl⟩⟩

/-- Exactly the recoverable claims have an interrupted result that passes. -/
theorem interruptedResultPasses_iff (hp : ProgressValid p)
    (htime : validV2Timestamp verifiedAt = true) :
    InterruptedResultPasses claim verifiedAt p ↔ Recoverable claim verifiedAt p := by
  constructor
  · rintro ⟨terminal, body, hresult, hpayload⟩
    obtain ⟨-, -, hbody, -⟩ := v2EvaluationInterruptedResult_eq_ok_iff.mp hresult
    obtain ⟨hcarries, -⟩ := (validateV2FinalizationPayload_body_iff hbody).mp hpayload
    obtain ⟨hvalid, hfits, -⟩ := verificationReceiptV2Body_eq_ok_iff.mp hbody
    obtain ⟨-, hsealed, hstatable⟩ := (bodyValid_interrupted_iff hp).mp hvalid
    exact
      { sealed := hsealed, statable := hstatable
        policy := carriesClaim_interrupted_iff.mp hcarries, fits := hfits }
  · intro h
    have hvalid : BodyValid (interruptedReceipt claim verifiedAt p) :=
      (bodyValid_interrupted_iff hp).mpr ⟨htime, h.sealed, h.statable⟩
    have hdoc := wireDocument_receipt (positionValid_atGenesis _)
      (bodyValid_atGenesis_iff.mpr hvalid) .body
    obtain ⟨body, hcanonical⟩ := hdoc.exists_canonical
    have hbody : verificationReceiptV2Body (interruptedReceipt claim verifiedAt p) = .ok body :=
      verificationReceiptV2Body_eq_ok_iff.mpr ⟨hvalid, h.fits, hcanonical⟩
    obtain ⟨terminal, hterminal⟩ := exists_terminalResultJson "indeterminate"
      "evaluation_interrupted" "authorization_unverified"
    refine ⟨terminal, body,
      v2EvaluationInterruptedResult_eq_ok_iff.mpr ⟨htime, hp, hbody, hterminal⟩, ?_⟩
    exact (validateV2FinalizationPayload_body_iff hbody).mpr
      ⟨carriesClaim_interrupted_iff.mpr h.policy, hterminal⟩

end RatifyProtocol.V2
