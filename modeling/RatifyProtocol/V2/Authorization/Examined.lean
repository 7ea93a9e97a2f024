import RatifyProtocol.V2.Authorization.Stages
set_option autoImplicit false

/-!
# Authorization: what the local evaluation has examined

The checks of `evaluate_local_started`, taken apart once: a proof is examined when no check
ends its evaluation, and cleared when no failure is kept for later.
-/

namespace RatifyProtocol.V2

open Foundation

/-! ## Early returns -/

theorem endIf_eq_ok_iff {bad : Bool} {a : V2LocalAuthorizationAssessment} {u : Unit} :
    endIf bad a = .ok u ↔ bad = false := by
  cases bad <;> simp [endIf]

theorem bind_end_eq_ok_iff {x : Except V2LocalAuthorizationAssessment Unit}
    {f : Unit → Except V2LocalAuthorizationAssessment Unit} {u : Unit} :
    (x >>= f) = .ok u ↔ x = .ok () ∧ f () = .ok u := by
  cases x with
  | error a => simp [bind, Except.bind]
  | ok u' => simp [bind, Except.bind]

theorem endAtCert_eq_ok_iff {bad : DelegationCertV2 → Bool}
    {a : Nat → DelegationCertV2 → V2LocalAuthorizationAssessment} {certs : List DelegationCertV2} :
    ∀ {i : Nat} {u : Unit}, endAtCert bad a i certs = .ok u ↔ ∀ c ∈ certs, bad c = false := by
  induction certs with
  | nil => simp [endAtCert]
  | cons c certs ih =>
    intro i u
    rw [endAtCert, bind_end_eq_ok_iff, endIf_eq_ok_iff, ih, List.forall_mem_cons]

@[simp] theorem errorText_isSome_eq_false_iff {r : V2Result Unit} :
    (errorText r).isSome = false ↔ r = .ok () := by
  cases r <;> simp [errorText]

/-! ## The chain -/

/-- A certificate whose validity contains the time of the claim. -/
structure CertCurrent (now futureSkew : Int) (c : DelegationCertV2) : Prop where
  issued : 0 ≤ c.issuedAt ∧ c.issuedAt ≤ now + futureSkew
  lifetime : c.issuedAt < c.expiresAt
    ∧ c.expiresAt ≤ c.issuedAt + v2MaxDelegationLifetimeSeconds
  unexpired : now < c.expiresAt ∧ c.expiresAt ≤ v2MaxTimestampSeconds

/-- The root of a chain is the one that the verifier trusts. -/
structure TrustedRoot (o : V2LocalAuthorizationOptions) (root : DelegationCertV2) : Prop where
  configured : o.trustConfigured = true
  id : o.trustedRootId = root.issuerId
  key : o.trustedRootKey = root.issuerPubKey

/-- A chain of current certificates from a trusted root, where every parent may delegate. -/
structure ChainExamined (b : ProofBundleV2) (o : V2LocalAuthorizationOptions)
    (now futureSkew : Int) : Prop where
  root : ∃ root, b.delegations.getLast? = some root ∧ TrustedRoot o root
  current : ∀ c ∈ b.delegations, CertCurrent now futureSkew c
  scopes : ∀ c ∈ b.delegations, validateScopesV2 c.scope = .ok ()
  delegates : ∀ parent ∈ b.delegations.tail, scopeIdentityDelegate ∈ parent.scope

variable {b : ProofBundleV2} {o : V2LocalAuthorizationOptions} {now futureSkew : Int}

theorem certCurrent_iff (hnow : validV2Timestamp now = true)
    (hskew : validV2Timestamp futureSkew = true) {c : DelegationCertV2} :
    certTimesInvalid now futureSkew c = false ∧ decide (now ≥ c.expiresAt) = false
      ↔ CertCurrent now futureSkew c := by
  have hadd : checkedAddV2 now futureSkew = some (now + futureSkew) := by
    rw [checkedAddV2, hnow, hskew]
    rfl
  simp only [certTimesInvalid, hadd, Option.all_some, Bool.or_eq_false_iff, Bool.not_eq_false',
    decide_eq_false_iff_not, validV2Timestamp_iff, not_le, not_lt, ge_iff_le, gt_iff_lt]
  constructor
  · rintro ⟨⟨⟨⟨⟨h₁, h₂⟩, h₃⟩, h₄⟩, h₅⟩, h₆⟩
    exact ⟨⟨h₁.1, h₅⟩, ⟨h₃, by omega⟩, h₆, h₂.2⟩
  · intro h
    obtain ⟨h₁, h₂⟩ := h.issued
    obtain ⟨h₃, h₄⟩ := h.lifetime
    obtain ⟨h₅, h₆⟩ := h.unexpired
    exact ⟨⟨⟨⟨⟨by omega, by omega⟩, h₃⟩, by omega⟩, h₂⟩, h₅⟩

theorem checkChain_eq_ok_iff (hnow : validV2Timestamp now = true)
    (hskew : validV2Timestamp futureSkew = true) :
    checkChain b o now futureSkew = .ok () ↔ ChainExamined b o now futureSkew := by
  rw [checkChain]
  cases hroot : b.delegations.getLast? with
  | none =>
    refine iff_of_false (by simp) fun h => ?_
    obtain ⟨root, hsome, -⟩ := h.root
    rw [hroot] at hsome
    cases hsome
  | some root =>
    have hbeq : (!grantsDelegation root) = !root.scope.contains scopeIdentityDelegate := rfl
    simp only [bind_end_eq_ok_iff, endIf_eq_ok_iff, endAtCert_eq_ok_iff,
      errorText_isSome_eq_false_iff, Bool.or_eq_false_iff, Bool.not_eq_false', bne_eq_false_iff_eq]
    constructor
    · rintro ⟨hconfigured, ⟨hid, hkey⟩, htimes, hunexpired, hscopes, hdelegates⟩
      exact
        { root := ⟨root, hroot, hconfigured, hid, equalKeys_iff.mp hkey⟩
          current := fun c hc => (certCurrent_iff hnow hskew).mp ⟨htimes c hc, hunexpired c hc⟩
          scopes := hscopes
          delegates := fun parent hparent => List.contains_iff_mem.mp (hdelegates parent hparent) }
    · intro h
      obtain ⟨root', hsome, htrusted⟩ := h.root
      rw [hroot] at hsome
      obtain rfl := Option.some.inj hsome
      exact ⟨htrusted.configured, ⟨htrusted.id, equalKeys_iff.mpr htrusted.key⟩,
        fun c hc => ((certCurrent_iff hnow hskew).mpr (h.current c hc)).1,
        fun c hc => ((certCurrent_iff hnow hskew).mpr (h.current c hc)).2, h.scopes,
        fun parent hparent => List.contains_iff_mem.mpr (h.delegates parent hparent)⟩

/-! ## The proof -/

variable (P : Primitives) (archive : ZoneArchive)

/-- The proof that was claimed, under the options that were. -/
structure SealedProof (b : ProofBundleV2) (o : V2LocalAuthorizationOptions)
    (t : V2EvaluationToken) : Prop where
  scope : o.requiredScope = t.requiredScope ∧ o.requiredScope = t.expected.requiredScope
  skew : o.futureSkewSeconds = t.futureSkew
  hash : bundleHashV2 P b = .ok t.proofDigest
  answers : b.challenge = t.expected.value ∧ b.challengeAt = t.expected.issuedAt
    ∧ b.verifierId = t.expected.verifierId
  scopeForm : validateRequiredScopeV2 o.requiredScope = .ok ()
  chain : SignedChain P b
  policy : ∀ p, o.contextPolicy = some p → t.expected.contextPolicy = some p

/-- A proof that no check of the local evaluation has ended. -/
structure Examined (b : ProofBundleV2) (o : V2LocalAuthorizationOptions)
    (t : V2EvaluationToken) : Prop where
  claimTime : t.claimTimeValid = true
  challenge : ∀ e, o.expectedChallenge = some e → matchesExpectedChallengeV2 e t.expected = true
  sealedProof : SealedProof P b o t
  chain : ChainExamined b o t.claimedAt t.futureSkew

/-- A proof whose scope, context, constraints and windows allow it. -/
structure Cleared (b : ProofBundleV2) (o : V2LocalAuthorizationOptions) (t : V2EvaluationToken) :
    Prop where
  scope : o.requiredScope ∈ effectiveScopes b
  context : ∃ p, t.expected.contextPolicy = some p ∧ ContextBound b p
  constraints : ∀ p ∈ b.placed, (p.verdict (t.localInputs archive o)).status = .passed
  windows : ∃ until_, localTimeWindowValidUntilV2 archive b o.tzdbVersion t.claimedAt = .ok until_

variable {P archive} {t : V2EvaluationToken}

theorem checkLocal_eq_ok_iff (hnow : validV2Timestamp t.claimedAt = true)
    (hskew : validV2Timestamp t.futureSkew = true) :
    checkLocal P b o t = .ok () ↔
      SealedProof P b o t ∧ ChainExamined b o t.claimedAt t.futureSkew := by
  have hpolicy : (o.contextPolicy.isSome
        && !sameV2ContextPolicy o.contextPolicy t.expected.contextPolicy) = false
      ↔ ∀ p, o.contextPolicy = some p → t.expected.contextPolicy = some p := by
    cases hconfigured : o.contextPolicy with
    | none => simp
    | some p =>
      simp only [Option.isSome_some, Bool.true_and, Bool.not_eq_false', sameV2ContextPolicy_iff,
        Option.some.injEq, exists_eq_left', forall_eq']
  have hhash : (!reads (bundleHashV2 P b) fun h => h == t.proofDigest) = false
      ↔ bundleHashV2 P b = .ok t.proofDigest := by
    cases bundleHashV2 P b <;> simp [reads]
  simp only [checkLocal, checkSealed, bind_end_eq_ok_iff, endIf_eq_ok_iff, hpolicy, hhash,
    errorText_isSome_eq_false_iff, verifyProofBundleV2Signatures_eq_ok_iff,
    checkChain_eq_ok_iff hnow hskew, Bool.or_eq_false_iff, bne_eq_false_iff_eq]
  constructor
  · rintro ⟨⟨⟨h₁, h₂⟩, h₃, h₄, ⟨⟨h₅, h₆⟩, h₇⟩, h₈, h₉⟩, h₁₀, h₁₁⟩
    exact ⟨⟨⟨h₁, h₃⟩, h₂, h₄, ⟨h₅, h₆, h₇⟩, h₈, h₉, h₁₁⟩, h₁₀⟩
  · rintro ⟨h, hchain⟩
    exact ⟨⟨⟨h.scope.1, h.skew⟩, h.scope.2, h.hash, ⟨⟨h.answers.1, h.answers.2.1⟩, h.answers.2.2⟩,
      h.scopeForm, h.chain⟩, hchain, h.policy⟩

/-! ## Endings -/

/-- An assessment that can be sealed, and not as an allow. -/
def V2LocalAuthorizationAssessment.Refuses (a : V2LocalAuthorizationAssessment) : Prop :=
  ∃ decision, terminalDecisionForV2Evaluation a.status a.reason = some decision
    ∧ decision ≠ "allow"

/-- Every early return of a computation refuses. -/
def EndsRefused (x : Except V2LocalAuthorizationAssessment Unit) : Prop :=
  ∀ a, x = .error a → a.Refuses

theorem refuses_local {status reason detail decision : String} {scope : List String}
    (h : terminalDecisionForV2Evaluation status reason = some decision)
    (hdecision : decision ≠ "allow") : (v2LocalAssessment status reason scope detail).Refuses :=
  ⟨decision, h, hdecision⟩

theorem refuses_interrupted (detail : String) : (v2InterruptedAssessment detail).Refuses :=
  refuses_local rfl (by decide)

theorem EndsRefused.endIf {bad : Bool} {a : V2LocalAuthorizationAssessment} (h : a.Refuses) :
    EndsRefused (endIf bad a) := by
  intro a' ha'
  rw [V2.endIf] at ha'
  split at ha'
  · obtain rfl := Except.error.inj ha'
    exact h
  · cases ha'

theorem EndsRefused.bind {x : Except V2LocalAuthorizationAssessment Unit}
    {f : Unit → Except V2LocalAuthorizationAssessment Unit} (hx : EndsRefused x)
    (hf : EndsRefused (f ())) : EndsRefused (x >>= f) := by
  intro a ha
  cases hcase : x with
  | error a' =>
    rw [hcase] at ha
    obtain rfl := Except.error.inj ha
    exact hx _ hcase
  | ok u =>
    rw [hcase] at ha
    exact hf a ha

theorem EndsRefused.endAtCert {bad : DelegationCertV2 → Bool}
    {a : Nat → DelegationCertV2 → V2LocalAuthorizationAssessment} (h : ∀ i c, (a i c).Refuses)
    (certs : List DelegationCertV2) : ∀ i, EndsRefused (endAtCert bad a i certs) := by
  induction certs with
  | nil =>
    intro i a' ha'
    cases ha'
  | cons c certs ih => exact fun i => .bind (.endIf (h i c)) (ih (i + 1))

theorem endsRefused_checkChain : EndsRefused (checkChain b o now futureSkew) := by
  rw [checkChain]
  split
  · intro a ha
    obtain rfl := Except.error.inj ha
    exact refuses_local rfl (by decide)
  · refine .bind (.endIf (refuses_local rfl (by decide))) ?_
    refine .bind (.endIf (refuses_local rfl (by decide))) ?_
    refine .bind (.endAtCert (fun _ _ => refuses_local rfl (by decide)) _ _) ?_
    refine .bind (.endAtCert (fun _ _ => refuses_local rfl (by decide)) _ _) ?_
    refine .bind (.endAtCert (fun _ _ => refuses_local rfl (by decide)) _ _) ?_
    exact .endAtCert (fun _ _ => refuses_local rfl (by decide)) _ _

theorem endsRefused_checkLocal : EndsRefused (checkLocal P b o t) := by
  refine .bind ?_ (.bind endsRefused_checkChain (.endIf (refuses_interrupted _)))
  refine .bind (.endIf (refuses_interrupted _)) ?_
  refine .bind (.endIf (refuses_interrupted _)) ?_
  refine .bind (.endIf (refuses_interrupted _)) ?_
  refine .bind (.endIf (refuses_interrupted _)) ?_
  exact .bind (.endIf (refuses_interrupted _)) (.endIf (refuses_interrupted _))

/-! ## The evaluation -/

/-- What a claim has sealed of its own time. -/
structure V2EvaluationToken.Timed (t : V2EvaluationToken) : Prop where
  skew : 0 ≤ t.futureSkew ∧ t.futureSkew ≤ v2MaxFutureSkewSeconds
  claimed : t.claimTimeValid = true → validV2Timestamp t.claimedAt = true

theorem V2EvaluationToken.Timed.skewValid (h : t.Timed) : validV2Timestamp t.futureSkew = true := by
  have hmax : v2MaxFutureSkewSeconds ≤ v2MaxTimestampSeconds := by decide
  have hskew := h.skew
  rw [validV2Timestamp_iff]
  omega

/-- An examined proof leaves a pending assessment; the evaluation of any other is over. -/
theorem evaluateLocalStarted_cases (h : t.Timed) (P : Primitives) (archive : ZoneArchive)
    (b : ProofBundleV2) (o : V2LocalAuthorizationOptions) :
    (Examined P b o t ∧ evaluateLocalStarted P archive b o t
        = (pendingV2LocalAssessment archive b o t, t.claimedAt))
      ∨ (¬ Examined P b o t ∧ (evaluateLocalStarted P archive b o t).1.Refuses) := by
  rw [evaluateLocalStarted]
  split
  · rename_i hclaim
    exact .inr ⟨fun he => by simp [he.claimTime] at hclaim, refuses_interrupted _⟩
  rename_i hclaim
  have hclaim : t.claimTimeValid = true := by simpa using hclaim
  split
  · rename_i hdiffers
    refine .inr ⟨fun he => ?_, refuses_interrupted _⟩
    cases hconfigured : o.expectedChallenge with
    | none => simp [hconfigured] at hdiffers
    | some e => simp [hconfigured, he.challenge e hconfigured] at hdiffers
  rename_i hsame
  have hchallenge : ∀ e, o.expectedChallenge = some e →
      matchesExpectedChallengeV2 e t.expected = true := by
    intro e he
    simpa [he] using hsame
  have hok := checkLocal_eq_ok_iff (P := P) (b := b) (o := o) (h.claimed hclaim) h.skewValid
  split
  · rename_i a hcheck
    refine .inr ⟨fun he => ?_, endsRefused_checkLocal a hcheck⟩
    rw [hok.mpr ⟨he.sealedProof, he.chain⟩] at hcheck
    cases hcheck
  · rename_i hcheck
    obtain ⟨hsealed, hchain⟩ := hok.mp hcheck
    exact .inl ⟨⟨hclaim, hchallenge, hsealed, hchain⟩, rfl⟩

/-- What is kept of the failures of a proof. -/
def localFailure (archive : ZoneArchive) (b : ProofBundleV2) (o : V2LocalAuthorizationOptions)
    (t : V2EvaluationToken) : Option V2LocalPolicyFailure :=
  (pendingV2LocalAssessment archive b o t).localPolicyFailure

theorem localFailure_eq_none_iff : localFailure archive b o t = none ↔ Cleared archive b o t := by
  have hscope : scopeFailure b o.requiredScope = none ↔ o.requiredScope ∈ effectiveScopes b := by
    simp [scopeFailure]
  have hcontext : contextFailure (evaluateProofBundleV2ContextPolicy b t.expected.contextPolicy)
      = none ↔ ∃ p, t.expected.contextPolicy = some p ∧ ContextBound b p := by
    rw [← contextPolicy_passed_iff, contextFailure]
    split <;> simp_all
  have hconstraints :
      constraintFailure (evaluateV2LocalConstraints (t.localInputs archive o) b) = none
        ↔ ∀ p ∈ b.placed, (p.verdict (t.localInputs archive o)).status = .passed := by
    rw [← evaluateV2LocalConstraints_passed_iff, constraintFailure]
    split <;> simp_all
  have hpolicy : policyFailure archive b o t = none ↔
      (o.requiredScope ∈ effectiveScopes b
        ∧ ∃ p, t.expected.contextPolicy = some p ∧ ContextBound b p)
      ∧ ∀ p ∈ b.placed, (p.verdict (t.localInputs archive o)).status = .passed := by
    rw [policyFailure, Option.or_eq_none_iff, Option.or_eq_none_iff, hscope, hcontext, hconstraints]
  show (policyFailure archive b o t).or (windowFailure (windowHorizon archive b o t)) = none ↔ _
  rw [Option.or_eq_none_iff, hpolicy]
  constructor
  · rintro ⟨⟨⟨hs, hc⟩, hk⟩, hw⟩
    rw [windowHorizon, hpolicy.mpr ⟨⟨hs, hc⟩, hk⟩] at hw
    cases hwindow : localTimeWindowValidUntilV2 archive b o.tzdbVersion t.claimedAt with
    | error e => simp [hwindow, windowFailure] at hw
    | ok until_ => exact ⟨hs, hc, hk, until_, hwindow⟩
  · intro h
    obtain ⟨until_, hwindow⟩ := h.windows
    refine ⟨⟨⟨h.scope, h.context⟩, h.constraints⟩, ?_⟩
    rw [windowHorizon, hpolicy.mpr ⟨⟨h.scope, h.context⟩, h.constraints⟩]
    simp [hwindow, windowFailure]

end RatifyProtocol.V2
