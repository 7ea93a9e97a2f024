import RatifyProtocol.V1.Verify
set_option autoImplicit false

/-!
# V1: refusals

Every check of a verification fails with a result that is not valid, so a valid
result has passed all of them.
-/

namespace RatifyProtocol.V1

open Foundation

variable {P : Platform} {K : Primitives}

/-! ## Checks -/

/-- A check fails with a result that is not valid. -/
def Refuses {α : Type} (x : Except VerifyResult α) : Prop := ∀ r, x = .error r → r.valid = false

@[simp] theorem refuses_ok {α : Type} (a : α) : Refuses (.ok a : Except VerifyResult α) := by
  intro r h
  cases h

@[simp] theorem refuses_error {α : Type} (r : VerifyResult) :
    Refuses (.error r : Except VerifyResult α) ↔ r.valid = false :=
  ⟨fun h => h r rfl, fun h _ hr => Except.error.inj hr ▸ h⟩

theorem Refuses.bind {α β : Type} {x : Except VerifyResult α} {f : α → Except VerifyResult β}
    (hx : Refuses x) (hf : ∀ a, Refuses (f a)) : Refuses (x >>= f) := by
  intro r h
  obtain h | ⟨a, -, h⟩ := bind_eq_error_iff.mp h
  · exact hx r h
  · exact hf a r h

theorem Refuses.forM {α : Type} {f : α → Except VerifyResult Unit} {xs : List α}
    (hf : ∀ x, Refuses (f x)) : Refuses (xs.forM f) := by
  intro r h
  obtain ⟨x, -, hx⟩ := exists_of_forM_eq_error h
  exact hf x r hx

@[simp] theorem valid_invalid (reason msg : String) : (invalid reason msg).valid = false := rfl

@[simp] theorem valid_failWithStatus (status msg : String) :
    (failWithStatus status msg).valid = false := rfl

@[simp] theorem valid_expired (humanId agentId : String) :
    (expired humanId agentId).valid = false := rfl

@[simp] theorem valid_revoked (humanId agentId : String) :
    (revoked humanId agentId).valid = false := rfl

theorem refuses_checkSessionContext (what : String) (presented expected : Bytes) :
    Refuses (checkSessionContext what presented expected) := by
  unfold checkSessionContext
  repeat' split
  all_goals simp

theorem refuses_checkStream (what : String) (streamId : Bytes) (streamSeq : Int64)
    (stream : Option StreamContext) : Refuses (checkStream what streamId streamSeq stream) := by
  unfold checkStream
  dsimp only
  repeat' split
  all_goals simp

theorem refuses_checkLiveness (t : ChallengeTuple) (sig : V2.HybridSignature)
    (agentPubKey : V2.HybridPublicKey) (now : Int64) :
    Refuses (checkLiveness K t sig agentPubKey now) := by
  unfold checkLiveness
  dsimp only
  repeat' split
  all_goals simp

theorem refuses_checkCertBounds (i : Nat) (cert : DelegationCert) :
    Refuses (checkCertBounds i cert) := by
  unfold checkCertBounds
  repeat' split
  all_goals simp

theorem refuses_checkStructure (bundle : ProofBundle) (opts : VerifyOptions) :
    Refuses (checkStructure bundle opts) := by
  unfold checkStructure
  dsimp only
  split
  · simp
  split
  · simp
  split
  · simp
  · apply Refuses.bind
    · exact Refuses.forM fun (c : DelegationCert × Nat) => refuses_checkCertBounds c.2 c.1
    · exact fun _ => refuses_checkSessionContext _ _ _

theorem refuses_checkConstraints (cert : DelegationCert) (i : Nat) (opts : VerifyOptions)
    (now : Int64) : Refuses (checkConstraints P cert i opts now) := by
  unfold checkConstraints evaluateCertConstraints
  cases evaluateConstraints P cert opts.context now opts.constraintEvaluators <;> simp

theorem refuses_checkCert (i : Nat) (cert : DelegationCert) (opts : VerifyOptions) (now : Int64)
    (humanId agentId : String) : Refuses (checkCert P K i cert opts now humanId agentId) := by
  have hvalidity : Refuses (checkValidity i cert now humanId agentId) := by
    unfold checkValidity
    repeat' split
    all_goals simp
  have hrevocation : Refuses (checkRevocation i cert opts humanId agentId) := by
    unfold checkRevocation
    repeat' split
    all_goals simp
  unfold checkCert
  dsimp only
  split
  · simp
  split
  · simp [error_bind]
  apply hvalidity.bind
  intro _
  apply hrevocation.bind
  intro _
  split
  · simp [error_bind]
  split
  · simp
  · exact refuses_checkConstraints cert i opts now

theorem refuses_checkChain (opts : VerifyOptions) (now : Int64) (humanId agentId : String)
    (i : Nat) (certs : List DelegationCert) :
    Refuses (checkChain P K opts now humanId agentId i certs) := by
  fun_induction checkChain P K opts now humanId agentId i certs with
  | case1 => simp
  | case2 i cert => exact refuses_checkCert i cert opts now humanId agentId
  | case3 i cert next rest ih =>
    apply (refuses_checkCert i cert opts now humanId agentId).bind
    intro _
    apply Refuses.bind
    · unfold checkLinkage
      repeat' split
      all_goals simp
    · exact fun _ => ih

theorem refuses_checkAgent (bundle : ProofBundle) : Refuses (checkAgent bundle) := by
  unfold checkAgent
  repeat' split
  all_goals simp

theorem refuses_checkPresentation (bundle : ProofBundle) (opts : VerifyOptions) (now : Int64) :
    Refuses (checkPresentation P K bundle opts now) := by
  unfold checkPresentation
  apply (refuses_checkStream _ _ _ _).bind
  intro _
  apply (refuses_checkAgent bundle).bind
  intro _
  dsimp only
  split
  · simp
  · exact (refuses_checkChain opts now _ _ 0 _).bind fun _ => refuses_checkLiveness _ _ _ _

theorem refuses_checkToken (token : SessionToken) (sessionSecret : Bytes) (turn : StreamedTurn)
    (opts : StreamedVerifyOptions) (now : Int64) :
    Refuses (checkToken K token sessionSecret turn opts now) := by
  unfold checkToken
  dsimp only
  split
  · simp [error_bind]
  split
  · simp [error_bind]
  · exact refuses_checkSessionContext _ _ _

theorem refuses_checkTurn (token : SessionToken) (turn : StreamedTurn)
    (opts : StreamedVerifyOptions) (now : Int64) : Refuses (checkTurn K token turn opts now) :=
  (refuses_checkStream _ _ _ _).bind fun _ => refuses_checkLiveness _ _ _ _

/-! ## Valid results -/

theorem refuses_checkPolicy (bundle : ProofBundle) (opts : VerifyOptions) :
    Refuses (checkPolicy bundle opts) := by
  unfold checkPolicy
  repeat' split
  all_goals simp

theorem refuses_checkPolicyGate (bundle : ProofBundle) (opts : VerifyOptions) (now : Int64) :
    Refuses (checkPolicyGate P K bundle opts now) := by
  unfold checkPolicyGate
  repeat' split
  all_goals first
    | exact refuses_checkPolicy bundle opts
    | simp

theorem refuses_authorizeBundle (bundle : ProofBundle) (opts : VerifyOptions) (now : Int64) :
    Refuses (authorizeBundle P K bundle opts now) := by
  unfold authorizeBundle
  dsimp only
  split
  · simp
  · exact (refuses_checkPolicyGate bundle opts now).bind fun _ => refuses_ok _

/-- A verification that ends with a valid result has passed every check. -/
theorem of_presentation_valid {store : Bool} {challenge sessionContext : Bytes} {now : Int64}
    {before between : Except VerifyResult Unit} {after r : VerifyResult}
    {log : List (StoreCall × Bool)}
    (h : (presentation store challenge sessionContext now before between after).Leads log (.ret r))
    (hbefore : Refuses before) (hbetween : Refuses between) (hr : r.valid = true) :
    before = .ok () ∧ between = .ok () ∧ r = after := by
  have hunknown : r ≠ unknownChallenge := by
    rintro rfl
    cases hr
  unfold presentation at h
  cases before with
  | error e =>
    obtain ⟨-, hret⟩ := Interaction.Leads.ret_iff.mp h
    rw [Interaction.ret.inj hret, hbefore e rfl] at hr
    cases hr
  | ok u =>
    cases between with
    | error e =>
      have hfailed : r ≠ e := by
        rintro rfl
        rw [hbetween r rfl] at hr
        cases hr
      dsimp only at h
      split at h
      · obtain ⟨-, hcall⟩ | ⟨found, rest, -, hfound⟩ := Interaction.Leads.call_iff.mp h
        · cases hcall
        split at hfound
        · exact absurd (Interaction.ret.inj (Interaction.Leads.ret_iff.mp hfound).2) hunknown
        · exact absurd (Interaction.ret.inj (Interaction.Leads.ret_iff.mp hfound).2) hfailed
      · exact absurd (Interaction.ret.inj (Interaction.Leads.ret_iff.mp h).2) hfailed
    | ok u =>
      refine ⟨rfl, rfl, ?_⟩
      dsimp only at h
      split at h
      · obtain ⟨-, hcall⟩ | ⟨found, rest, -, hfound⟩ := Interaction.Leads.call_iff.mp h
        · cases hcall
        split at hfound
        · exact absurd (Interaction.ret.inj (Interaction.Leads.ret_iff.mp hfound).2) hunknown
        obtain ⟨-, hcall⟩ | ⟨consumed, rest, -, hconsumed⟩ := Interaction.Leads.call_iff.mp hfound
        · cases hcall
        split at hconsumed
        · exact absurd (Interaction.ret.inj (Interaction.Leads.ret_iff.mp hconsumed).2) hunknown
        · exact Interaction.ret.inj (Interaction.Leads.ret_iff.mp hconsumed).2
      · exact Interaction.ret.inj (Interaction.Leads.ret_iff.mp h).2

/-- A bundle that is settled as valid is authorized. -/
theorem authorizeBundle_of_settled {bundle : ProofBundle} {opts : VerifyOptions} {now : Int64}
    (h : (settleBundle P K bundle opts now).valid = true) :
    authorizeBundle P K bundle opts now = .ok (settleBundle P K bundle opts now) := by
  have hauthorize : ∀ r, settle (authorizeBundle P K bundle opts now) = r → r.valid = true →
      authorizeBundle P K bundle opts now = .ok r := by
    rintro r rfl hr
    cases hresult : authorizeBundle P K bundle opts now with
    | ok r => rfl
    | error r =>
      rw [hresult, settle, refuses_authorizeBundle bundle opts now r hresult] at hr
      cases hr
  have hdeferred : Refuses (checkDeferredConstraints P bundle opts now) :=
    Refuses.forM fun (c : DelegationCert × Nat) => refuses_checkConstraints c.1 c.2 opts now
  unfold settleBundle at h ⊢
  dsimp only at h ⊢
  by_cases hstore : opts.challengeStore = true
  · rw [if_pos hstore] at h ⊢
    cases hcheck : checkDeferredConstraints P bundle opts now with
    | ok u =>
      rw [hcheck] at h
      exact hauthorize _ rfl h
    | error r =>
      rw [hcheck, error_bind, settle, hdeferred r hcheck] at h
      cases h
  · rw [if_neg hstore] at h ⊢
    exact hauthorize _ rfl h

end RatifyProtocol.V1
