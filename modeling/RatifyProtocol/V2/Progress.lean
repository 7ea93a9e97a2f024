import RatifyProtocol.V2.Claim
set_option autoImplicit false

/-!
# Claims: evaluation progress and the interrupted result

`v2/evaluation_progress.rs`: the progress an evaluator persists, its validation,
and the terminal result that lease-expiry recovery builds from it.
-/

namespace RatifyProtocol.V2

open Foundation

/-- The per-dimension progress of one claimed evaluation. -/
structure V2EvaluationProgress where
  trustAssessment : String
  statusAssessment : String
  contextAssessment : String
  contextPolicyDigest : Option String
  statusEvidence : List StatusEvidenceEntryV2
  deriving DecidableEq, Repr

/-- No post-claim check has started. -/
def initialV2EvaluationProgress : V2EvaluationProgress :=
  { trustAssessment := "not_evaluated", statusAssessment := "not_evaluated",
    contextAssessment := "not_evaluated", contextPolicyDigest := none, statusEvidence := [] }

def validateV2EvaluationProgressInner (p : V2EvaluationProgress) : V2Result Unit := do
  refuseIf (! ["not_evaluated", "unavailable", "trusted", "untrusted"].contains
      p.trustAssessment)
    "v2 evaluation progress trust_assessment is invalid"
  refuseIf (! ["not_evaluated", "unavailable", "current", "revoked", "stale"].contains
      p.statusAssessment)
    "v2 evaluation progress status_assessment is invalid"
  refuseIf (! ["not_evaluated", "bound", "not_required"].contains p.contextAssessment)
    "v2 evaluation progress context_assessment is invalid"
  refuseIf ((p.contextAssessment == "not_evaluated") != p.contextPolicyDigest.isNone
      || p.contextPolicyDigest.any fun d => !validPrefixedDigest d)
    "v2 evaluation progress context_policy_digest does not match context_assessment"
  refuseIf (p.trustAssessment != "trusted"
      && (p.statusAssessment != "not_evaluated" || p.contextAssessment != "not_evaluated"))
    "v2 evaluation progress records status or context without a trusted root"
  refuseIf (p.statusAssessment == "not_evaluated" && !p.statusEvidence.isEmpty)
    "v2 evaluation progress status evidence is inconsistent with status_assessment"

/-- The assessments of valid progress. -/
structure ProgressValid (p : V2EvaluationProgress) : Prop where
  trust : p.trustAssessment ∈ ["not_evaluated", "unavailable", "trusted", "untrusted"]
  status : p.statusAssessment ∈ ["not_evaluated", "unavailable", "current", "revoked", "stale"]
  context : p.contextAssessment ∈ ["not_evaluated", "bound", "not_required"]
  digest : p.contextAssessment = "not_evaluated" ↔ p.contextPolicyDigest = none
  digestValid : ∀ d, p.contextPolicyDigest = some d → validPrefixedDigest d = true
  trusted : p.trustAssessment ≠ "trusted" →
    p.statusAssessment = "not_evaluated" ∧ p.contextAssessment = "not_evaluated"
  evidence : p.statusAssessment = "not_evaluated" → p.statusEvidence = []

theorem validateV2EvaluationProgressInner_eq_ok_iff {p : V2EvaluationProgress} {u : Unit} :
    validateV2EvaluationProgressInner p = .ok u ↔ ProgressValid p := by
  have hdigest : ((p.contextAssessment == "not_evaluated") != p.contextPolicyDigest.isNone) = false
      ↔ (p.contextAssessment = "not_evaluated" ↔ p.contextPolicyDigest = none) := by
    rw [bne_eq_false_iff_eq, Bool.eq_iff_iff, beq_iff_eq, Option.isNone_iff_eq_none]
  have hvalid : (p.contextPolicyDigest.any fun d => !validPrefixedDigest d) = false
      ↔ ∀ d, p.contextPolicyDigest = some d → validPrefixedDigest d = true := by
    cases p.contextPolicyDigest <;> simp
  have htrusted : (p.trustAssessment != "trusted" && (p.statusAssessment != "not_evaluated"
      || p.contextAssessment != "not_evaluated")) = false
        ↔ (p.trustAssessment ≠ "trusted" →
          p.statusAssessment = "not_evaluated" ∧ p.contextAssessment = "not_evaluated") := by
    simp
  have hevidence : (p.statusAssessment == "not_evaluated" && !p.statusEvidence.isEmpty) = false
      ↔ (p.statusAssessment = "not_evaluated" → p.statusEvidence = []) := by
    simp
  simp only [validateV2EvaluationProgressInner, refuseIf_bind_eq_ok_iff, refuseIf_eq_ok_iff,
    Bool.or_eq_false_iff (x := (p.contextAssessment == "not_evaluated") != _), hdigest, hvalid,
    htrusted, hevidence, Bool.not_eq_false', List.contains_iff_mem]
  constructor
  · rintro ⟨h₁, h₂, h₃, ⟨h₄, h₅⟩, h₆, h₇⟩
    exact ⟨h₁, h₂, h₃, h₄, h₅, h₆, h₇⟩
  · rintro ⟨h₁, h₂, h₃, h₄, h₅, h₆, h₇⟩
    exact ⟨h₁, h₂, h₃, ⟨h₄, h₅⟩, h₆, h₇⟩

theorem initialV2EvaluationProgress_valid :
    validateV2EvaluationProgressInner initialV2EvaluationProgress = .ok () :=
  validateV2EvaluationProgressInner_eq_ok_iff.mpr
    { trust := by simp [initialV2EvaluationProgress]
      status := by simp [initialV2EvaluationProgress]
      context := by simp [initialV2EvaluationProgress]
      digest := by simp [initialV2EvaluationProgress]
      digestValid := by simp [initialV2EvaluationProgress]
      trusted := by simp [initialV2EvaluationProgress]
      evidence := by simp [initialV2EvaluationProgress] }

/-- Progress that did not start trust has nothing else either. -/
theorem ProgressValid.unstarted {p : V2EvaluationProgress} (hp : ProgressValid p)
    (h : p.trustAssessment = "not_evaluated") :
    p.statusAssessment = "not_evaluated" ∧ p.contextAssessment = "not_evaluated"
      ∧ p.statusEvidence = [] := by
  obtain ⟨hstatus, hcontext⟩ := hp.trusted (by simp [h])
  exact ⟨hstatus, hcontext, hp.evidence hstatus⟩

/-- What a claim store returns to lease-expiry recovery. -/
structure V2InterruptedClaim where
  claim : V2ChallengeClaim
  claimedAt : Int
  progress : V2EvaluationProgress
  deriving DecidableEq, Repr

/-- A terminal claim as the store's terminal compare-and-set persisted it. -/
structure V2CommittedClaim where
  claim : V2ChallengeClaim
  terminalResult : Bytes
  receiptBody : Bytes
  allowHorizon : Int
  deriving DecidableEq, Repr

/-- The receipt an interrupted evaluation ends in; it has no log position. -/
def interruptedReceipt (claim : V2ChallengeClaim) (verifiedAt : Int)
    (progress : V2EvaluationProgress) : VerificationReceiptV2 :=
  { version := 2, logId := "", sequence := 0, verifierId := claim.verifierId,
    agentId := claim.agentId, humanId := "", bundleHash := claim.bundleHash,
    issuerIds := sortedUnique claim.issuerIds, decision := "indeterminate",
    decisionReason := "evaluation_interrupted", identityStatus := "authorization_unverified",
    trustAssessment := progress.trustAssessment, statusAssessment := progress.statusAssessment,
    challengeAssessment := "current", constraintEvaluators := claim.constraintEvaluators,
    contextAssessment := progress.contextAssessment,
    contextPolicyDigest := progress.contextPolicyDigest, verifiedAt := verifiedAt,
    requiredScope := claim.requiredScope, grantedScope := [],
    statusEvidence := progress.statusEvidence, previousReceiptHash := [],
    signature := noSignature }

/-- The canonical terminal result and receipt body of an interrupted evaluation. -/
def v2EvaluationInterruptedResult (claim : V2ChallengeClaim) (verifiedAt : Int)
    (progress : V2EvaluationProgress) : V2Result (Bytes × Bytes) :=
  if !validV2Timestamp verifiedAt then
    err .configurationInvalid "v2 recovery time is outside the timestamp domain"
  else do
    classify .malformed (validateV2EvaluationProgressInner progress)
    let receiptBody ← classify .malformed
      (verificationReceiptV2Body (interruptedReceipt claim verifiedAt progress))
    let terminal ← classify .malformed
      (terminalResultJson "indeterminate" "evaluation_interrupted" "authorization_unverified")
    .ok (terminal, receiptBody)

end RatifyProtocol.V2
