import RatifyProtocol.V2.FinalizationRuns
import RatifyProtocol.V2.Reference.RateSafety
set_option autoImplicit false

/-!
# Reference store: one terminal result for one capability

The reference store, with every other call on it in between, is a store that the
evaluator token of a claim can rely on.
-/

namespace RatifyProtocol.V2

open Foundation

variable {ω : Type} {P : Primitives} {anchor : StoreAnchor ω} {claimId : String}
  {ownerToken : Bytes}

/-- The terminal payload of a record. -/
def ClaimRecord.outcome (r : ClaimRecord) : Option (Bytes × Bytes) :=
  match r.state with
  | .terminal => some (r.terminal, r.receiptBody)
  | .evaluating => none

theorem ClaimRecord.outcome_of_terminal {r : ClaimRecord} (h : r.state = .terminal) :
    r.outcome = some (r.terminal, r.receiptBody) := by
  rw [outcome, h]

theorem ClaimRecord.outcome_of_evaluating {r : ClaimRecord} (h : r.state = .evaluating) :
    r.outcome = none := by
  rw [outcome, h]

theorem ClaimRecord.terminal_of_outcome {r : ClaimRecord} {p : Bytes × Bytes}
    (h : r.outcome = some p) : r.state = .terminal ∧ p = (r.terminal, r.receiptBody) := by
  cases hstate : r.state with
  | evaluating => cases (r.outcome_of_evaluating hstate).symm.trans h
  | terminal => exact ⟨rfl, (Option.some.inj ((r.outcome_of_terminal hstate).symm.trans h)).symm⟩

/-- The terminal payload of a claim in a store. -/
def StoreState.outcome (s : StoreState) (claimId : String) : Option (Bytes × Bytes) :=
  (s.claims.get? claimId).bind ClaimRecord.outcome

theorem StoreState.outcome_eq {s : StoreState} {record : ClaimRecord}
    (h : s.claims.get? claimId = some record) : s.outcome claimId = record.outcome := by
  rw [outcome, h]
  rfl

/-- A store in which the claim is owned by the token. -/
def OwnedStore (P : Primitives) (ω : Type) (claimId : String) (ownerToken : Bytes) : Type :=
  { s : Anchored ω // ∃ record, s.store.claims.get? claimId = some record ∧
      P.sha256 ownerToken = record.ownerDigest }

/-- The owner of a claim that has come to `p` is answered `false` for `p` and
refused anything else. -/
theorem finalizeV2Claim_of_outcome {p : Payload} {horizon : Int}
    {s t : OwnedStore P ω claimId ownerToken} {r : V2StoreResult Bool} {q : Bytes × Bytes}
    (houtcome : s.1.store.outcome claimId = some q)
    (h : finalizeV2Claim P anchor claimId ownerToken p.terminalResult.1 p.receiptBody.1 horizon s.1
      = (r, t.1)) :
    t = s ∧ (r = .ok false ∧ q = p.bytes ∨ q ≠ p.bytes ∧ r ≠ .error .rateLimitExceeded ∧
      ∃ e, r = .error e) := by
  obtain ⟨record, hfound, howner⟩ := s.2
  rw [StoreState.outcome_eq hfound] at houtcome
  obtain ⟨hterminal, rfl⟩ := record.terminal_of_outcome houtcome
  rw [finalizeV2Claim_of_terminal hfound howner hterminal] at h
  obtain ⟨hr, ht⟩ := Prod.mk.inj h
  refine ⟨Subtype.ext ht.symm, ?_⟩
  split at hr
  · rename_i hsame
    simp only [Bool.and_eq_true, beq_iff_eq] at hsame
    exact .inl ⟨hr.symm, Prod.ext hsame.1 hsame.2⟩
  · rename_i hother
    refine .inr ⟨?_, ?_, _, hr.symm⟩
    · intro hsame
      obtain ⟨hterminal, hbody⟩ := Prod.mk.inj hsame
      exact hother (by rw [hterminal, hbody, beq_self_eq_true, beq_self_eq_true]; rfl)
    · rw [← hr]
      intro hlimited
      cases hlimited

/-- The owner of a claim that is still evaluated commits, or is refused and
nothing has changed. -/
theorem finalizeV2Claim_of_evaluating {p : Payload} {horizon : Int}
    {s t : OwnedStore P ω claimId ownerToken} {r : V2StoreResult Bool}
    (houtcome : s.1.store.outcome claimId = none)
    (h : finalizeV2Claim P anchor claimId ownerToken p.terminalResult.1 p.receiptBody.1 horizon s.1
      = (r, t.1)) :
    (r = .ok true ∧ t.1.store.outcome claimId = some p.bytes) ∨
      ((∃ e, r = .error e) ∧ t.1.store.outcome claimId = none) := by
  obtain ⟨record, hfound, howner⟩ := s.2
  rw [StoreState.outcome_eq hfound] at houtcome
  rcases finalizeV2Claim_cases h with ⟨hquiet, hr, hrepeat⟩ | ⟨record', receipt, hnew, rfl⟩
  · refine .inr ⟨?_, ?_⟩
    · match r, hr, hrepeat with
      | .ok true, hr, _ => exact absurd rfl hr
      | .error e, _, _ => exact ⟨e, rfl⟩
      | .ok false, _, hrepeat =>
        obtain ⟨record', hfound', hterminal⟩ := hrepeat rfl
        obtain rfl := Option.some.inj (hfound.symm.trans hfound')
        cases houtcome.symm.trans (record.outcome_of_terminal hterminal)
    · rw [StoreState.outcome, hquiet.claims, hfound]
      exact houtcome
  · refine .inl ⟨rfl, ?_⟩
    rw [hnew.state, StoreState.outcome_eq (OrderedMap.get?_insert_self _ _ _)]
    rfl

/-- The reference store. -/
def referenceStore (P : Primitives) (anchor : StoreAnchor ω) (claimId : String)
    (ownerToken : Bytes) (rateView : Bool) :
    TerminalStore (OwnedStore P ω claimId ownerToken) claimId ownerToken where
  rateView := rateView
  outcome s := s.1.store.outcome claimId
  finalizes s p horizon r t :=
    finalizeV2Claim P anchor claimId ownerToken p.terminalResult.1 p.receiptBody.1 horizon s.1
      = (r, t.1)
  other s t := ∃ call r, StoreCall.perform P anchor call s.1 = (r, t.1)
  commits := by
    intro s t p horizon h
    cases houtcome : s.1.store.outcome claimId with
    | some q =>
      obtain ⟨-, ⟨hr, -⟩ | ⟨-, -, e, hr⟩⟩ := finalizeV2Claim_of_outcome houtcome h <;> cases hr
    | none =>
      obtain ⟨-, hsealed⟩ | ⟨⟨e, hr⟩, -⟩ := finalizeV2Claim_of_evaluating houtcome h
      · exact ⟨rfl, hsealed⟩
      · cases hr
  repeats := by
    intro s t p horizon h
    cases houtcome : s.1.store.outcome claimId with
    | some q =>
      obtain ⟨rfl, ⟨-, rfl⟩ | ⟨-, -, e, hr⟩⟩ := finalizeV2Claim_of_outcome houtcome h
      · exact ⟨rfl, houtcome⟩
      · cases hr
    | none =>
      obtain ⟨hr, -⟩ | ⟨⟨e, hr⟩, -⟩ := finalizeV2Claim_of_evaluating houtcome h <;> cases hr
  refuses := by
    intro s t p horizon e h
    cases houtcome : s.1.store.outcome claimId with
    | some q =>
      obtain ⟨rfl, ⟨hr, -⟩ | ⟨hother, -⟩⟩ := finalizeV2Claim_of_outcome houtcome h
      · cases hr
      · exact ⟨fun hsame => hother (Option.some.inj hsame), houtcome⟩
    | none =>
      obtain ⟨hr, -⟩ | ⟨-, hsame⟩ := finalizeV2Claim_of_evaluating houtcome h
      · cases hr
      · exact ⟨nofun, hsame⟩
  rollsBack := by
    intro s t p horizon h
    cases houtcome : s.1.store.outcome claimId with
    | some q =>
      obtain ⟨-, ⟨hr, -⟩ | ⟨-, hr, -⟩⟩ := finalizeV2Claim_of_outcome houtcome h
      · cases hr
      · exact absurd rfl hr
    | none => rfl
  keeps := by
    rintro s t p ⟨call, r, h⟩ houtcome
    obtain ⟨record, hfound, -⟩ := s.2
    rw [StoreState.outcome_eq hfound] at houtcome
    obtain ⟨hterminal, rfl⟩ := record.terminal_of_outcome houtcome
    obtain ⟨record', hfound', hsame⟩ := (perform_effect h).terminalsKept claimId record hfound
      hterminal
    rw [StoreState.outcome_eq hfound',
      ClaimRecord.outcome_of_terminal (hsame.state.trans hterminal), hsame.terminal,
      hsame.receiptBody]

/-! ## A first finalization -/

/-- The interrupted result of the first claim. -/
theorem exists_firstPayload : ∃ p : Payload,
    validateV2FinalizationPayload firstClaim p.terminalResult.1 p.receiptBody.1 = .ok () ∧
      terminalPayloadMatchesV2 p.terminalResult.1 p.receiptBody.1 "indeterminate"
        "evaluation_interrupted" = true ∧
      ∃ receipt, decodeVerificationReceiptBodyV2 p.receiptBody.1 = .ok receipt ∧
        receipt.decision = "indeterminate" := by
  obtain ⟨terminal, body, hresult, hpayload⟩ := firstClaim_plain.passes
  obtain ⟨-, -, hbody, hterminal⟩ := v2EvaluationInterruptedResult_eq_ok_iff.mp hresult
  have hdecode := decodeVerificationReceiptBodyV2_body hbody
  have hlength : terminal.length ≤ isizeMax :=
    (length_canonical hterminal).2.trans (by decide)
  have hbodyLength : body.length ≤ isizeMax := by
    have hsize := hdecode
    simp only [decodeVerificationReceiptBodyV2, classify_eq_ok_iff, bind_eq_ok_iff] at hsize
    obtain ⟨_, hsize, -⟩ := hsize
    simp only [checkV2WireSize, refuseIf_eq_ok_iff, decide_eq_false_iff_not, not_lt] at hsize
    exact hsize.trans (by decide)
  refine ⟨⟨⟨terminal, hlength⟩, ⟨body, hbodyLength⟩⟩, hpayload, ?_, _, hdecode, rfl⟩
  have hterminal' : terminalResultJson
      (interruptedReceipt firstClaim 100 initialV2EvaluationProgress).decision
      (interruptedReceipt firstClaim 100 initialV2EvaluationProgress).decisionReason
      (interruptedReceipt firstClaim 100 initialV2EvaluationProgress).identityStatus
        = .ok terminal := hterminal
  simp only [terminalPayloadMatchesV2, bodyOutcome_body hbody, hterminal', beq_self_eq_true,
    Bool.and_true]
  rfl

/-- The token of the first claim after its evaluation was interrupted. -/
def firstTokenState : TokenState :=
  { claimId := firstClaim.claimId, claim := firstClaim, ownerToken := firstToken
    evaluationComplete := true
    m :=
      { finalizationDigest := List.replicate 32 0, finalizationStarted := false
        rateAtFinalization := false, allowValidUntil := 0
        evaluationStatus := "authorization_unverified"
        evaluationReason := "evaluation_interrupted" } }

section Runs

variable {σ : Type} {token : TokenState} {s₀ : σ} {events : List (Option Attempt)}
  {t : TokenState × σ}

/-- The finalization capability.  Whatever a claim store answers, and however
often its replies are lost: the token submits one payload with the horizon of
its evaluation, except that after the exact `RateLimitExceeded` to an allow with
rate admission at finalization, of which nothing was committed, it submits one
denial without a horizon; at most one submission is committed, and it stays what
the claim says; a retry of it is answered without another commit; and an allow
carries the positive horizon of the evaluation. -/
theorem finalization_sealsOnce (S : TerminalStore σ token.claimId token.ownerToken)
    (hfresh : token.m.finalizationStarted = false)
    (hrun : Run (FinalizeStep P S) (token, s₀) events t)
    (hdiffer : DigestsDiffer P (attemptedPayloads events)) :
    (∃ p q first rest, exchanges events = first ++ rest ∧
      Carries token p token.m.allowValidUntil first ∧ Carries token q 0 rest ∧
      (rest ≠ [] → RolledBack P S.rateView token p first ∧
        terminalPayloadMatchesV2 q.terminalResult.1 q.receiptBody.1 "deny" "constraint_denied"
          = true)) ∧
    (exchanges events).countP Exchange.commits ≤ 1 ∧
    (∀ x ∈ exchanges events, x.commits = true →
      S.outcome t.2 = some x.submission.payload.bytes) ∧
    (∀ before after a x, events = before ++ some a :: after → x ∈ exchanges before →
      x.commits = true → a.payload = x.submission.payload → a.cancelled = false →
      ∃ reply, Delivered (.ok false) reply ∧
        a.exchange = some ⟨x.submission, .ok false, reply⟩ ∧ a.result = reply.mapError .store) ∧
    (∀ x ∈ exchanges events, ∀ reason identity,
      bodyOutcome x.submission.payload.receiptBody.1 = some ("allow", reason, identity) →
      x.submission.allowValidUntil = token.m.allowValidUntil ∧ 0 < token.m.allowValidUntil) := by
  have hkept := kept_of_run hfresh hrun hdiffer
  refine ⟨?_, hkept.once, hkept.committed, ?_, fun x hx _ _ => hkept.allow_horizon hx⟩
  · have hcourse := hkept.course
    generalize exchanges events = xs at hcourse
    generalize t.1.m = m at hcourse
    have hnone : ∀ (p : Payload) (horizon : Int), Carries token p horizon [] :=
      fun _ _ x hx => absurd hx List.not_mem_nil
    cases hcourse with
    | fresh =>
      have empty : Payload := ⟨⟨[], Nat.zero_le _⟩, ⟨[], Nat.zero_le _⟩⟩
      exact ⟨empty, empty, [], [], rfl, hnone _ _, hnone _ _, fun h => absurd rfl h⟩
    | @started _ p _ _ hcarries _ =>
      exact ⟨p, p, xs, [], (List.append_nil _).symm, hcarries, hnone _ _, fun h => absurd rfl h⟩
    | @rolledBack _ p hback =>
      exact ⟨p, p, xs, [], (List.append_nil _).symm, hback.carries, hnone _ _,
        fun h => absurd rfl h⟩
    | @denied first rest p q hback _ hcarries hadmitted =>
      exact ⟨p, q, first, rest, rfl, hback.carries, hcarries, fun _ => ⟨hback, hadmitted.matched⟩⟩
  · rintro before after a x rfl hx hcommits hpayload hcancelled
    obtain ⟨u, hbefore, hafter⟩ := Run.append_iff.mp hrun
    obtain ⟨v, hstep, -⟩ := Run.append_iff.mp (show Run _ _ ([some a] ++ after) t from hafter)
    obtain ⟨w, hnil, hlast⟩ := Run.snoc_iff.mp (show Run _ _ ([] ++ [some a]) v from hstep)
    obtain rfl := Run.nil_iff.mp hnil
    exact (kept_of_run hfresh hbefore hdiffer.of_append).retried hlast hx hcommits hpayload
      hcancelled

end Runs

/-- The first claim is finalized as interrupted; the reply is lost, and the retry
is answered `false`. -/
theorem finalization_sealsOnce_retried :
    ∃ (payload : Payload) (s t : OwnedStore (tabled []) Unit firstClaim.claimId firstToken)
      (token : TokenState) (events : List (Option Attempt)),
      Run (FinalizeStep (tabled [])
          (referenceStore (tabled []) none firstClaim.claimId firstToken false))
        (firstTokenState, s) events (token, t) ∧
      (events.map fun a => a.map (·.result))
        = [some (.error (.store (.unavailable "timeout"))), some (.ok false)] ∧
      (exchanges events).countP Exchange.commits ≤ 1 ∧
      t.1.store.outcome firstClaim.claimId = some payload.bytes := by
  obtain ⟨payload, hsealed, hmatched, receipt, hdecoded, hdecision⟩ := exists_firstPayload
  have hadmitted : Admitted (tabled []) false firstTokenState payload "indeterminate" :=
    { capability := ⟨List.length_replicate, firstClaim_named⟩, complete := rfl
      terminal := by decide, sealed := hsealed, matched := hmatched, horizon := rfl
      rate := fun h => absurd h (by decide), same := fun h => absurd h (by decide) }
  have hlive : OwnerLive (tabled []) firstClaim.claimId firstToken
      (firstRecord initialV2EvaluationProgress) (claimedStore 120 initialV2EvaluationProgress) :=
    { ready := ready_claimedStore (by omega) (by simp [v2MaxTimestampSeconds]) _
      found := found_claimedStore 120 _, owner := rfl, evaluating := rfl
      afterClaim := by decide, leaseLive := by decide }
  obtain ⟨after, hcommit, hafter⟩ := @finalizeV2Claim_commits Unit (tabled []) none
    .none firstClaim.claimId firstToken payload.terminalResult.1 payload.receiptBody.1 0
    (firstRecord initialV2EvaluationProgress) receipt
    { store := claimedStore 120 initialV2EvaluationProgress, device := () } hlive hsealed hdecoded
    (by rw [hdecision]; rfl) (by decide) rfl
  have hfound : after.store.claims.get? firstClaim.claimId
      = some ((firstRecord initialV2EvaluationProgress).commit payload.terminalResult.1
        payload.receiptBody.1 0 120 0) := by
    rw [hafter]
    exact OrderedMap.get?_insert_self _ _ _
  have hrepeat : finalizeV2Claim (tabled []) none firstClaim.claimId firstToken
      payload.terminalResult.1 payload.receiptBody.1 0 after = (.ok false, after) := by
    rw [finalizeV2Claim_of_terminal hfound rfl rfl, if_pos]
    simp only [ClaimRecord.commit, beq_self_eq_true, Bool.and_self]
  -- The store before and after, in which the token owns the claim.
  let s : OwnedStore (tabled []) Unit firstClaim.claimId firstToken :=
    ⟨{ store := claimedStore 120 initialV2EvaluationProgress, device := () }, _, hlive.found,
      hlive.owner⟩
  let t : OwnedStore (tabled []) Unit firstClaim.claimId firstToken := ⟨after, _, hfound, rfl⟩
  let S := referenceStore (tabled []) (none : StoreAnchor Unit) firstClaim.claimId firstToken false
  have hlost : Delivered (.ok true) (.error (.unavailable "timeout")) :=
    .inr ⟨.unavailable "timeout", V2StoreError.noConfusion, rfl⟩
  have hfirst := FinalizeStep.of_admitted (S := S) (s := s) (t := t) hadmitted hcommit hlost
  have hsecond := FinalizeStep.of_admitted (S := S) (s := t) (t := t) hadmitted.start hrepeat
    (.inl rfl)
  have hrun := (Run.single hfirst).snoc hsecond
  have hdiffer : DigestsDiffer (tabled []) [payload, payload] := by
    intro p hp q hq _
    simp only [List.mem_cons, List.not_mem_nil, or_false, or_self] at hp hq
    rw [hp, hq]
  have hfresh : firstTokenState.m.finalizationStarted = false := rfl
  obtain ⟨-, honce, hcommitted, -, -⟩ := @finalization_sealsOnce (tabled []) _ firstTokenState s _ _
    S hfresh hrun hdiffer
  refine ⟨payload, s, t, _, _, hrun, rfl, honce, ?_⟩
  exact hcommitted ⟨firstTokenState.submission payload, .ok true, .error (.unavailable "timeout")⟩
    (List.mem_cons_self) rfl

end RatifyProtocol.V2
