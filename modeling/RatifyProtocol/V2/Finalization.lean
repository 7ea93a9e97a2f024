import RatifyProtocol.Foundation.Interaction
import RatifyProtocol.V2.OperationContext
set_option autoImplicit false

/-!
# Claims: finalization

`finalize_claim_proof_bundle_v2_inner` of `v2/claim_store.rs`: how the one evaluator
token of a claim hands a terminal result to the claim store.  A call computes on
its own but for the one call of the store, so it is an `Interaction`.
-/

namespace RatifyProtocol.V2

open Foundation

/-- A terminal result and its receipt body. -/
structure Payload where
  terminalResult : Buffer
  receiptBody : Buffer
  deriving DecidableEq

/-- `TokenMut`, as far as finalization reads and writes it. -/
structure TokenMut where
  finalizationDigest : Bytes
  finalizationStarted : Bool
  rateAtFinalization : Bool
  allowValidUntil : Int
  evaluationStatus : String
  evaluationReason : String

/-- `TokenState`, as far as finalization reads it. -/
structure TokenState where
  claimId : String
  claim : V2ChallengeClaim
  ownerToken : Bytes
  evaluationComplete : Bool
  m : TokenMut

/-- The arguments of `finalize_v2_claim`. -/
structure Submission where
  claimId : String
  ownerToken : Bytes
  payload : Payload
  allowValidUntil : Int
  deriving DecidableEq

/-- Why the helper did not commit: its own refusal or the store's error. -/
inductive FinalizeFailure where
  | own (e : V2Error)
  | store (e : V2StoreError)
  deriving DecidableEq

/-! ## Checks -/

/-- `terminal_decision_for_v2_evaluation`. -/
def terminalDecisionForV2Evaluation (status reason : String) : Option String :=
  if reason = "evaluation_interrupted" then
    if status = "authorization_unverified" then some "indeterminate" else none
  else if status = "authorization_unverified" then
    if ["trust_unavailable", "action_context_unverified", "status_unavailable",
        "status_stale"].contains reason then some "indeterminate" else none
  else if status = "authorized_agent" then
    if reason = "authorized" then some "allow" else none
  else if ["constraint_denied", "constraint_unverifiable", "constraint_unknown", "unauthorized",
      "invalid_scope", "scope_denied"].contains status then
    if reason = status then some "deny" else none
  else if status = "revoked" then
    if reason = "delegation_revoked" then some "deny" else none
  else if status = "invalid" then
    if reason = "proof_invalid" then some "deny" else none
  else if status = "delegation_not_authorized" then
    if reason = "not_delegated" ∨ reason = "delegation_not_authorized" then some "deny" else none
  else if status = "expired" then
    if reason = "delegation_expired" then some "deny" else none
  else none

variable (P : Primitives)

/-- `v2_finalization_payload_digest`. -/
def v2FinalizationPayloadDigest (payload : Payload) : Bytes :=
  P.sha256 (fieldBytes payload.terminalResult ++ fieldBytes payload.receiptBody)

/-- The helper's own refusal. -/
def own {α : Type} (message : String) : Except FinalizeFailure α :=
  .error (.own (V2Error.plain message))

/-- What is checked before the store is called; the decision that is committed.
`cancelled` is `ctx.is_done()`, `rateView` whether the store has a
`rate_at_finalization_view`. -/
def checkFinalization (rateView cancelled : Bool) (token : TokenState) (payload : Payload) :
    Except FinalizeFailure String :=
  if token.ownerToken.length ≠ 32 ∨ token.claimId = "" then
    own "v2 claim store and valid evaluator capability are required"
  else if cancelled then own "v2 finalization context is done"
  else if !token.evaluationComplete then own "v2 proof evaluation has not completed"
  else
    match terminalDecisionForV2Evaluation token.m.evaluationStatus token.m.evaluationReason with
    | none => own "v2 proof evaluation has not reached a terminal local result"
    | some decision =>
      match validateV2FinalizationPayload token.claim payload.terminalResult.1
          payload.receiptBody.1 with
      | .error e => .error (.own e)
      | .ok () =>
        if !terminalPayloadMatchesV2 payload.terminalResult.1 payload.receiptBody.1 decision
            token.m.evaluationReason then
          own "v2 terminal result does not match the completed local evaluation"
        else if (decision = "allow" ∧ token.m.allowValidUntil ≤ 0)
            ∨ (decision ≠ "allow" ∧ token.m.allowValidUntil ≠ 0) then
          own "v2 terminal result lacks a valid allow freshness horizon"
        else if token.m.rateAtFinalization && !rateView then
          own "v2 rate-at-finalization requires an atomic rate store"
        else if token.m.finalizationStarted
            && token.m.finalizationDigest != v2FinalizationPayloadDigest P payload then
          own "v2 evaluator capability cannot change its terminal result or receipt body"
        else .ok decision

/-! ## The call -/

/-- The payload is fixed before the store is called. -/
def TokenMut.start (m : TokenMut) (digest : Bytes) : TokenMut :=
  { m with finalizationStarted := true, finalizationDigest := digest }

/-- After the store has rolled an allow back: the claim is denied instead. -/
def TokenMut.rolledBack : TokenMut :=
  { finalizationDigest := List.replicate 32 0, finalizationStarted := false
    rateAtFinalization := false, allowValidUntil := 0, evaluationStatus := "constraint_denied"
    evaluationReason := "constraint_denied" }

/-- What the store's answer makes of the token. -/
def TokenMut.settle (m : TokenMut) (rateView : Bool) (decision : String) :
    V2StoreResult Bool → TokenMut
  | .error .rateLimitExceeded =>
    if m.rateAtFinalization && decision == "allow" && rateView then .rolledBack else m
  | _ => m

/-- `finalize_claim_proof_bundle_v2_inner`, with the token after the call. -/
def finalizeClaimProofBundleV2Inner (rateView cancelled : Bool) (token : TokenState)
    (payload : Payload) :
    Interaction Submission (V2StoreResult Bool) (Except FinalizeFailure Bool × TokenState) :=
  match checkFinalization P rateView cancelled token payload with
  | .error e => .ret (.error e, token)
  | .ok decision =>
    let m := token.m.start (v2FinalizationPayloadDigest P payload)
    .call ⟨token.claimId, token.ownerToken, payload, m.allowValidUntil⟩ fun result =>
      .ret (result.mapError .store, { token with m := m.settle rateView decision result })

/-! ## What a submission has passed -/

/-- A token may submit a payload with this decision. -/
structure Admitted (rateView : Bool) (token : TokenState) (payload : Payload)
    (decision : String) : Prop where
  capability : token.ownerToken.length = 32 ∧ token.claimId ≠ ""
  complete : token.evaluationComplete = true
  terminal : terminalDecisionForV2Evaluation token.m.evaluationStatus token.m.evaluationReason
    = some decision
  sealed : validateV2FinalizationPayload token.claim payload.terminalResult.1
    payload.receiptBody.1 = .ok ()
  matched : terminalPayloadMatchesV2 payload.terminalResult.1 payload.receiptBody.1 decision
    token.m.evaluationReason = true
  horizon : if decision = "allow" then 0 < token.m.allowValidUntil
    else token.m.allowValidUntil = 0
  rate : token.m.rateAtFinalization = true → rateView = true
  same : token.m.finalizationStarted = true →
    token.m.finalizationDigest = v2FinalizationPayloadDigest P payload

variable {P}

theorem checkFinalization_eq_ok_iff {rateView cancelled : Bool} {token : TokenState}
    {payload : Payload} {decision : String} :
    checkFinalization P rateView cancelled token payload = .ok decision ↔
      cancelled = false ∧ Admitted P rateView token payload decision := by
  unfold checkFinalization own
  constructor
  · intro h
    split at h
    · cases h
    rename_i hcapability
    split at h
    · cases h
    rename_i hcancelled
    split at h
    · cases h
    rename_i hcomplete
    split at h
    · cases h
    rename_i decision' hterminal
    split at h
    · cases h
    rename_i hsealed
    split at h
    · cases h
    rename_i hmatched
    split at h
    · cases h
    rename_i hhorizon
    split at h
    · cases h
    rename_i hrate
    split at h
    · cases h
    rename_i hsame
    obtain rfl := Except.ok.inj h
    refine ⟨by simpa using hcancelled, ?_⟩
    exact
      { capability := by simpa using hcapability
        complete := by simpa using hcomplete
        terminal := hterminal
        sealed := hsealed
        matched := by simpa using hmatched
        horizon := by
          by_cases hallow : decision' = "allow"
          · simpa [hallow] using hhorizon
          · simpa [hallow] using hhorizon
        rate := fun hr => by simpa [hr] using hrate
        same := fun hs => by simpa [hs] using hsame }
  · rintro ⟨rfl, h⟩
    have hcapability : ¬ (token.ownerToken.length ≠ 32 ∨ token.claimId = "") := by
      simpa using h.capability
    have hhorizon : ¬ ((decision = "allow" ∧ token.m.allowValidUntil ≤ 0) ∨
        (decision ≠ "allow" ∧ token.m.allowValidUntil ≠ 0)) := by
      have hh := h.horizon
      by_cases hallow : decision = "allow"
      · simpa [hallow] using hh
      · simpa [hallow] using hh
    have hrate : ¬ (token.m.rateAtFinalization && !rateView) = true := by
      simpa using h.rate
    have hsame : ¬ (token.m.finalizationStarted
        && token.m.finalizationDigest != v2FinalizationPayloadDigest P payload) = true := by
      simpa using h.same
    simp only [if_neg hcapability, h.complete, h.terminal, h.sealed, h.matched, if_neg hhorizon,
      if_neg hrate, if_neg hsame, Bool.not_true, Bool.false_eq_true, if_false]

end RatifyProtocol.V2
