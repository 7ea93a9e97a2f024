import RatifyProtocol.V2.Authorization.Deadlines
set_option autoImplicit false

/-!
# Authorization: runs of a token

A token is shared by everyone who holds a copy of it, so its stages may be called in any
order and any number of times.  What one call makes of a token is said once for each stage;
what stands behind an allow follows for every run.
-/

namespace RatifyProtocol.V2

open Foundation

/-! ## Failures that are kept -/

def V2LocalPolicyFailure.Refuses (f : V2LocalPolicyFailure) : Prop :=
  ∃ decision, terminalDecisionForV2Evaluation f.status f.reason = some decision
    ∧ decision ≠ "allow"

theorem refuses_constraintStatus {s : ConstraintStatusV2} (h : s ≠ .passed) (detail : String) :
    V2LocalPolicyFailure.Refuses { status := s.text, reason := s.text, detail } := by
  cases s with
  | passed => exact absurd rfl h
  | unverifiable => exact ⟨"deny", rfl, by decide⟩
  | unknown => exact ⟨"deny", rfl, by decide⟩
  | denied => exact ⟨"deny", rfl, by decide⟩

variable {P : Primitives} {archive : ZoneArchive} {b : ProofBundleV2}
  {o : V2LocalAuthorizationOptions} {t t' : V2EvaluationToken}
  {a a' : V2LocalAuthorizationAssessment} {f : V2LocalPolicyFailure}

theorem refuses_contextFailure {policy : Option V2ContextPolicy}
    (h : contextFailure (evaluateProofBundleV2ContextPolicy b policy) = some f) : f.Refuses := by
  rw [contextFailure] at h
  split at h
  · cases h
  rename_i hfailed
  obtain rfl := Option.some.inj h
  revert hfailed
  cases policy with
  | none => exact fun _ => ⟨"indeterminate", rfl, by decide⟩
  | some p =>
    simp only [evaluateProofBundleV2ContextPolicy, V2ContextPolicy.isValid_eq_true, Bool.not_true,
      Bool.false_eq_true, if_false]
    split
    · exact fun h => absurd rfl h
    split
    · exact fun _ => ⟨"indeterminate", rfl, by decide⟩
    split
    · exact fun _ => ⟨"deny", rfl, by decide⟩
    · exact fun h => absurd rfl h

/-- The failures of two checks, where the first is kept. -/
theorem refuses_or {x y : Option V2LocalPolicyFailure} (hx : ∀ f, x = some f → f.Refuses)
    (hy : ∀ f, y = some f → f.Refuses) : ∀ f, x.or y = some f → f.Refuses := by
  intro f h
  cases x with
  | none => exact hy f (by simpa using h)
  | some g => exact hx f (by simpa using h)

/-- A failure that is kept can be sealed later, and not as an allow. -/
theorem refuses_localFailure (h : localFailure archive b o t = some f) : f.Refuses := by
  refine refuses_or (refuses_or (refuses_or ?_ fun f => refuses_contextFailure) ?_) ?_ f h
  · intro f hf
    rw [scopeFailure] at hf
    split at hf
    · cases hf
    · obtain rfl := Option.some.inj hf
      exact ⟨"deny", rfl, by decide⟩
  · intro f hf
    rw [constraintFailure] at hf
    split at hf
    · cases hf
    · rename_i hstatus
      obtain rfl := Option.some.inj hf
      exact refuses_constraintStatus hstatus _
  · intro f hf
    rw [windowFailure.eq_def] at hf
    split at hf
    · cases hf
    · obtain rfl := Option.some.inj hf
      exact refuses_constraintStatus (s := .unverifiable) (by decide) _

/-- A refusal is neither pending nor an allow. -/
theorem refusing_status {status reason : String}
    (h : ∃ decision, terminalDecisionForV2Evaluation status reason = some decision
      ∧ decision ≠ "allow") :
    status ≠ "pending_external_checks" ∧ status ≠ "authorized_agent" := by
  obtain ⟨decision, hterminal, hdecision⟩ := h
  constructor
  · rintro rfl
    rw [terminalDecisionForV2Evaluation] at hterminal
    split at hterminal <;> simp at hterminal
  · rintro rfl
    rw [terminalDecisionForV2Evaluation] at hterminal
    split at hterminal
    · simp at hterminal
    · simp at hterminal
      exact hdecision hterminal.2.symm

/-! ## What each stage makes of a token -/

/-- The status of the chain ends the evaluation, or leaves it to what is deferred. -/
theorem resolveStatus_cases {aggregated : V2StatusAssessment}
    (h : resolveStatus a aggregated = .ok a')
    (hfailure : ∀ f, a.localPolicyFailure = some f → f.Refuses) :
    a'.Refuses ∨ aggregated.assessment = "current"
      ∧ ((a.localPolicyFailure = none ∧ a.deferred = [] ∧ a' = (a.withStatus aggregated).authorize
          "proof, status, and local authorization checks passed")
        ∨ (a.localPolicyFailure = none ∧ a.deferred ≠ [] ∧ a' = (a.withStatus aggregated).pending
          "deferred_policy_checks_required"
          "status is current; deferred audience or rate checks remain")
        ∨ (combinableWithAudienceV2 a.localPolicyFailure a.deferred = true
          ∧ a' = ((a.withStatus aggregated).keep V2DeferredConstraint.isAudience).pending
            "deferred_policy_checks_required"
            "status is current; audience must be aggregated with a pending local constraint result")) := by
  rw [resolveStatus] at h
  split at h
  · obtain rfl := Except.ok.inj h
    exact .inl ⟨"deny", rfl, by decide⟩
  split at h
  · obtain rfl := Except.ok.inj h
    exact .inl ⟨"indeterminate", rfl, by decide⟩
  split at h
  · obtain rfl := Except.ok.inj h
    exact .inl ⟨"indeterminate", rfl, by decide⟩
  split at h
  · rename_i hcurrent
    split at h
    · rename_i hcombinable
      exact .inr ⟨hcurrent, .inr (.inr ⟨hcombinable, (Except.ok.inj h).symm⟩)⟩
    split at h
    · rename_i f hlocal
      obtain rfl := Except.ok.inj h
      exact .inl (hfailure f hlocal)
    · rename_i hlocal
      split at h
      · rename_i hnone
        exact .inr ⟨hcurrent, .inl ⟨hlocal, List.isEmpty_iff.mp hnone, (Except.ok.inj h).symm⟩⟩
      · rename_i hsome
        exact .inr ⟨hcurrent, .inr (.inl ⟨hlocal, fun hnil => hsome (List.isEmpty_iff.mpr hnil),
          (Except.ok.inj h).symm⟩)⟩
  · cases h

/-- The audience ends the evaluation of a kept failure and of its own; one that passes leaves
it to the rates. -/
theorem resolveAudience_cases (a : V2LocalAuthorizationAssessment) (result : V2AudienceAssessment)
    (hfailure : ∀ f, a.localPolicyFailure = some f → f.Refuses) :
    (resolveAudience a result).Refuses ∨ (a.localPolicyFailure = none ∧ result.status = .passed
      ∧ (((∀ d ∈ a.deferred, d.isAudience = true) ∧ resolveAudience a result
          = ((a.withAudience result).keep fun d => !d.isAudience).authorize
            "proof, status, audience, and local authorization checks passed")
        ∨ resolveAudience a result
          = ((a.withAudience result).keep fun d => !d.isAudience).pending
            "rate_reservation_required" "audience passed; rate reservation remains")) := by
  have hkept : (a.withAudience result).localPolicyFailure = a.localPolicyFailure := rfl
  rw [resolveAudience]
  dsimp only
  split
  · rename_i f hf
    refine .inl ?_
    split
    · exact hfailure f hf
    · rename_i hnot
      rw [not_or] at hnot
      exact refuses_constraintStatus hnot.1 ""
  · rename_i hnone
    split
    · rename_i hstatus
      exact .inl (refuses_constraintStatus hstatus "")
    rename_i hpassed
    refine .inr ⟨hnone, not_not.mp hpassed, ?_⟩
    split
    · rename_i hempty
      refine .inl ⟨?_, rfl⟩
      have hnil := List.isEmpty_iff.mp hempty
      simpa [V2LocalAuthorizationAssessment.keep, V2LocalAuthorizationAssessment.withAudience]
        using hnil
    · exact .inr rfl

/-- The rate store ends the evaluation. -/
theorem resolveRate_cases (a : V2LocalAuthorizationAssessment) (atFinalization : Bool)
    (result : V2StoreResult Unit) :
    (resolveRate a atFinalization result).Refuses ∨ (result = .ok ()
      ∧ ∃ detail, resolveRate a atFinalization result
        = { a.authorize detail with deferred := [] }) := by
  rw [resolveRate.eq_def]
  split
  · exact .inr ⟨rfl, _, rfl⟩
  · exact .inl ⟨"deny", rfl, by decide⟩
  · exact .inl ⟨"deny", rfl, by decide⟩

/-! ## What each call makes of a token -/

/-- A token of the same claim. -/
def SameToken (t₀ t : V2EvaluationToken) : Prop :=
  t = { t₀ with
    m := t.m, evaluationComplete := t.evaluationComplete, used := t.used
    evaluatedAt := t.evaluatedAt, pendingAssessment := t.pendingAssessment }

/-- A token whose evaluation waits for nothing and has not ended in an allow. -/
structure Closed (t : V2EvaluationToken) : Prop where
  pending : t.pending = none
  unauthorized : t.m.evaluationStatus ≠ "authorized_agent"

theorem closed_of_status (h : t.m.evaluationStatus ≠ "pending_external_checks"
    ∧ t.m.evaluationStatus ≠ "authorized_agent") : Closed t where
  pending := by
    rw [V2EvaluationToken.pending, if_neg]
    simp [h.1]
  unauthorized := h.2

theorem closed_settle (h : a.Refuses) : Closed (t.settle a) :=
  closed_of_status (refusing_status h)

theorem closed_mismatched : Closed t.mismatched :=
  closed_of_status ⟨by simp [V2EvaluationToken.mismatched],
    by simp [V2EvaluationToken.mismatched]⟩

theorem closed_interrupt : Closed t.interrupt :=
  closed_of_status ⟨by simp [V2EvaluationToken.interrupt], by simp [V2EvaluationToken.interrupt]⟩

theorem pending_eq_some (h : t.pending = some a) : t.evaluationComplete = true
    ∧ t.m.evaluationStatus = "pending_external_checks" ∧ t.pendingAssessment = some a := by
  rw [V2EvaluationToken.pending] at h
  split at h
  · rename_i hready
    simp only [Bool.and_eq_true, beq_iff_eq] at hready
    exact ⟨hready.1, hready.2, h⟩
  · cases h

/-- A stage that goes on leaves its own assessment. -/
theorem pending_settle (hcomplete : t.evaluationComplete = true)
    (hstatus : a.status = "pending_external_checks") : (t.settle a).pending = some a := by
  simp [V2EvaluationToken.pending, V2EvaluationToken.settle, hcomplete, hstatus]

/-- The one evaluation of a token. -/
theorem evaluate_cases (htimed : t.Timed) (P : Primitives) (archive : ZoneArchive)
    (b : ProofBundleV2) (o : V2LocalAuthorizationOptions) :
    (t.evaluate P archive b o).2 = t
      ∨ (SameToken t (t.evaluate P archive b o).2 ∧ (Closed (t.evaluate P archive b o).2
        ∨ (Examined P b o t ∧ (t.evaluate P archive b o).2.evaluatedAt = t.claimedAt
          ∧ (t.evaluate P archive b o).2.m.evaluationStatus = "pending_external_checks"
          ∧ (t.evaluate P archive b o).2.pending
            = some ((pendingV2LocalAssessment archive b o t).claimed t)))) := by
  rw [V2EvaluationToken.evaluate]
  split
  · exact .inl rfl
  split
  · exact .inl rfl
  refine .inr ⟨rfl, ?_⟩
  obtain ⟨hexamined, heq⟩ | ⟨-, hrefuses⟩ :=
    evaluateLocalStarted_cases htimed P archive b o
  · rw [heq]
    exact .inr ⟨hexamined, rfl, rfl, rfl⟩
  · exact .inl (closed_of_status (refusing_status hrefuses))

/-- A status stage that goes through. -/
theorem afterStatus_cases
    (aggregate : List V2CertificateStatusCheck → V2Result V2StatusAssessment) :
    (t.afterStatus aggregate).2 = t
      ∨ ∃ a a' aggregated, t.pending = some a ∧ aggregate a.statusChecks = .ok aggregated
        ∧ resolveStatus a aggregated = .ok a'
        ∧ t.afterStatus aggregate = (.ok a', t.settle a') := by
  rw [V2EvaluationToken.afterStatus]
  split
  · exact .inl rfl
  rename_i a ha
  split
  · exact .inl rfl
  split
  · exact .inl rfl
  rename_i a' hok
  obtain ⟨aggregated, haggregate, hresolve⟩ := bind_eq_ok_iff.mp hok
  exact .inr ⟨a, a', aggregated, ha, haggregate, hresolve, rfl⟩

/-- An audience stage that goes through, or that finds the token inconsistent. -/
theorem afterAudience_cases (ms : List V2AudienceMembership) :
    (t.afterAudience ms).2 = t ∨ (t.afterAudience ms).2 = t.mismatched
      ∨ ∃ a result, t.pending = some a ∧ a.statusAssessment = "current"
        ∧ evaluateReceiverAudience a.deferred t.expected.expectedReceiverId ms t.evaluatedAt
          t.futureSkew = .ok result
        ∧ t.afterAudience ms = (.ok (resolveAudience a result), t.settle (resolveAudience a result)) := by
  rw [V2EvaluationToken.afterAudience]
  split
  · exact .inl rfl
  rename_i a ha
  obtain ⟨ha, hready⟩ := Option.filter_eq_some_iff.mp ha
  rw [Bool.and_eq_true, beq_iff_eq] at hready
  split
  · exact .inr (.inl rfl)
  split
  · exact .inr (.inl rfl)
  rename_i result hresult
  exact .inr (.inr ⟨a, result, ha, hready.1, hresult, rfl⟩)

/-- What the rate stage has checked before it calls the store. -/
structure RateReady (t : V2EvaluationToken) (a : V2LocalAuthorizationAssessment) : Prop where
  pending : t.pending = some a
  current : a.statusAssessment = "current"
  cleared : a.localPolicyFailure = none
  sealed : t.rateBatch ≠ []
  rates : ∀ d ∈ a.deferred, d.kind = constraintMaxRate
  batch : buildV2RateReservationBatchInner a.deferred = .ok t.rateBatch

theorem checkRate_cases :
    (∃ e t', t.checkRate = .error (e, t') ∧ (t' = t ∨ t' = t.mismatched))
      ∨ ∃ a, t.checkRate = .ok a ∧ RateReady t a := by
  rw [V2EvaluationToken.checkRate]
  split
  · exact .inl ⟨_, _, rfl, .inl rfl⟩
  rename_i a ha
  obtain ⟨ha, hready⟩ := Option.filter_eq_some_iff.mp ha
  rw [Bool.and_eq_true, beq_iff_eq, Option.isNone_iff_eq_none] at hready
  split
  · exact .inl ⟨_, _, rfl, .inr rfl⟩
  rename_i hbinds
  split
  · exact .inl ⟨_, _, rfl, .inl rfl⟩
  rename_i hrates
  split
  · exact .inl ⟨_, _, rfl, .inr rfl⟩
  rename_i hbatch
  refine .inr ⟨a, rfl, ha, hready.1, hready.2, ?_, ?_, ?_⟩
  · intro hnil
    simp [hnil] at hbinds
  · simpa using hrates
  · simp only [Bool.not_eq_true', Bool.not_eq_false] at hbatch
    obtain ⟨batch, hok, hsame⟩ := exists_of_reads hbatch
    rw [hok, beq_iff_eq.mp hsame]

/-- A rate stage that goes through, or that finds the token inconsistent. -/
theorem afterRate_cases (cancelled : Bool) (store : RateStore)
    (answer : Option (V2StoreResult Unit)) :
    ((t.afterRate cancelled store).answered answer).2 = t
      ∨ ((t.afterRate cancelled store).answered answer).2 = t.mismatched
      ∨ ∃ a, RateReady t a ∧ (Closed ((t.afterRate cancelled store).answered answer).2
          ∧ SameToken t ((t.afterRate cancelled store).answered answer).2
        ∨ (store = .atFinalization ∨ store = .reserving ∧ answer = some (.ok ()))
          ∧ ∃ rateAtFinalization detail admissionDeferred,
            ((t.afterRate cancelled store).answered answer).2
              = { t with m := { t.m with rateAtFinalization } }.settle
                { a.authorize detail with
                  deferred := [], rateAdmissionDeferred := admissionDeferred }) := by
  rw [V2EvaluationToken.afterRate]
  split
  · exact .inl rfl
  obtain ⟨e, t', hcheck, ht'⟩ | ⟨a, hcheck, hready⟩ := checkRate_cases (t := t)
  · rw [hcheck]
    obtain rfl | rfl := ht'
    · exact .inl rfl
    · exact .inr (.inl rfl)
  refine .inr (.inr ⟨a, hready, ?_⟩)
  rw [hcheck]
  cases store with
  | absent => exact .inl ⟨closed_settle ⟨"deny", rfl, by decide⟩, rfl⟩
  | atFinalization => exact .inr ⟨.inl rfl, true, _, true, rfl⟩
  | reserving =>
    obtain hrefuses | ⟨hok, detail, heq⟩ := resolveRate_cases a t.m.rateAtFinalization
      (answer.getD (.error (.unavailable "rate store panicked")))
    · exact .inl ⟨closed_settle hrefuses, rfl⟩
    · have hanswer : answer = some (.ok ()) := by
        cases answer with
        | none => cases hok
        | some r => simpa using hok
      refine .inr ⟨.inr ⟨rfl, hanswer⟩, t.m.rateAtFinalization, detail, a.rateAdmissionDeferred, ?_⟩
      simp only [Interaction.answered_call, Interaction.answered_ret, heq]
      rfl

/-- A finalization changes nothing but what it has handed over, and denies an allow that was
rolled back. -/
theorem finalize_cases (rateView cancelled : Bool) (token : TokenState) (payload : Payload)
    (answer : V2StoreResult Bool) :
    let token' := ((finalizeClaimProofBundleV2Inner P rateView cancelled token payload).answered
      answer).2
    token' = { token with m := token'.m }
      ∧ (token'.m = .rolledBack ∨ (token'.m.evaluationStatus = token.m.evaluationStatus
        ∧ token'.m.allowValidUntil = token.m.allowValidUntil)) := by
  intro token'
  have htoken' : token' = ((finalizeClaimProofBundleV2Inner P rateView cancelled token
    payload).answered answer).2 := rfl
  rw [finalizeClaimProofBundleV2Inner] at htoken'
  split at htoken'
  · rw [htoken']
    exact ⟨rfl, .inr ⟨rfl, rfl⟩⟩
  · rw [htoken']
    refine ⟨rfl, ?_⟩
    simp only [Interaction.answered_call, Interaction.answered_ret, TokenMut.settle.eq_def]
    split
    · split
      · exact .inl rfl
      · exact .inr ⟨rfl, rfl⟩
    · exact .inr ⟨rfl, rfl⟩

/-! ## Runs -/

/-- One call with a token, with what the callbacks and the stores answer to it. -/
inductive TokenCall where
  | evaluate (b : ProofBundleV2) (o : V2LocalAuthorizationOptions)
  | status (aggregate : List V2CertificateStatusCheck → V2Result V2StatusAssessment)
  | audience (memberships : List V2AudienceMembership)
  | rate (cancelled : Bool) (store : RateStore) (answer : Option (V2StoreResult Unit))
  | interrupt
  | finalize (rateView cancelled : Bool) (payload : Payload) (answer : V2StoreResult Bool)

/-- The token after a call. -/
def TokenCall.perform (P : Primitives) (archive : ZoneArchive) (t : V2EvaluationToken) :
    TokenCall → V2EvaluationToken
  | .evaluate b o => (t.evaluate P archive b o).2
  | .status aggregate => (t.afterStatus aggregate).2
  | .audience memberships => (t.afterAudience memberships).2
  | .rate cancelled store answer => ((t.afterRate cancelled store).answered answer).2
  | .interrupt => t.interrupt
  | .finalize rateView cancelled payload answer =>
    { t with toTokenState := ((finalizeClaimProofBundleV2Inner P rateView cancelled t.toTokenState
        payload).answered answer).2 }

/-- Calls with one token, in any order. -/
abbrev TokenRun (P : Primitives) (archive : ZoneArchive) : V2EvaluationToken → List TokenCall →
    V2EvaluationToken → Prop :=
  Run fun t c t' => t' = c.perform P archive t

end RatifyProtocol.V2
