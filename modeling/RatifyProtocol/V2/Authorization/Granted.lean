import RatifyProtocol.V2.Authorization.TokenRuns
set_option autoImplicit false

/-!
# Authorization: what stands behind an allow

Whatever calls a token has seen, and in whatever order: if its evaluation is an allow, one
proof has passed every check of every stage, and the horizon is the greatest bound of all the
deadlines of what was found.
-/

namespace RatifyProtocol.V2

open Foundation

variable (P : Primitives) (archive : ZoneArchive) (t : V2EvaluationToken) (log : List TokenCall)
  (b : ProofBundleV2) (o : V2LocalAuthorizationOptions)

/-! ## Evidence of the stages -/

/-- The status of the chain was found current. -/
structure StatusCurrent (aggregated : V2StatusAssessment) : Prop where
  answered : ∃ aggregate, .status aggregate ∈ log
    ∧ aggregate (statusChecks b) = .ok aggregated
  current : aggregated.assessment = "current"

/-- The receiver was found in the audience of every constraint. -/
structure AudiencePassed (ms : List V2AudienceMembership) (result : V2AudienceAssessment) :
    Prop where
  answered : .audience ms ∈ log
  evaluated : evaluateReceiverAudience (deferredConstraints archive b o t)
    t.expected.expectedReceiverId ms t.claimedAt t.futureSkew = .ok result
  passed : result.status = .passed

/-- The batch of the claim was reserved, or is admitted when the allow is finalized. -/
structure RateAdmitted : Prop where
  answered : ∃ cancelled store answer, .rate cancelled store answer ∈ log
    ∧ (store = .atFinalization ∨ store = .reserving ∧ answer = some (.ok ()))
  batch : buildV2RateReservationBatchInner
    ((deferredConstraints archive b o t).filter fun d => !d.isAudience) = .ok t.rateBatch

/-- The memberships that an allow rests on. -/
def AudienceSettled : Option (List V2AudienceMembership) → Prop
  | none => ∀ p ∈ b.placed, p.constraint.kind ≠ constraintReceiverAudience
  | some ms => ∃ result, AudiencePassed archive t log b o ms result

/-- Everything that stands behind an allow. -/
structure Granted (horizon : Int) : Prop where
  evaluated : .evaluate b o ∈ log
  examined : Examined P b o t
  cleared : Cleared archive b o t
  rate : RateAdmitted archive t log b o ∨ ∀ p ∈ b.placed, p.constraint.kind ≠ constraintMaxRate
  settled : ∃ aggregated memberships, StatusCurrent log b aggregated
    ∧ AudienceSettled archive t log b o memberships
    ∧ IsGLB (allowDeadlines archive b o t aggregated memberships) horizon

/-- What no stage changes of the assessment that the local stage leaves. -/
structure LocalKept (a : V2LocalAuthorizationAssessment) : Prop where
  failure : a.localPolicyFailure = localFailure archive b o t
  checks : a.statusChecks = statusChecks b
  delegation : a.delegationValidUntil = delegationValidUntil b
  window : a.localTimeValidUntil = ((windowHorizon archive b o t).toOption).getD 0
  extension : a.extensionValidUntil
    = (evaluateV2LocalConstraints (t.localInputs archive o) b).extensionHorizon

/-- Which stage an assessment waits for.  A stage may be called again while the evaluation
waits for a later one. -/
inductive Waiting (a : V2LocalAuthorizationAssessment) : Prop
  | unanswered (deferred : a.deferred = deferredConstraints archive b o t)
      (status : a.statusAssessment = "") (audience : a.audienceFreshUntil = 0)
  | current {aggregated : V2StatusAssessment} (deferred : a.deferred = deferredConstraints archive b o t)
      (status : StatusCurrent log b aggregated) (fresh : a.statusFreshUntil = aggregated.freshUntil)
      (audience : a.audienceFreshUntil = 0) (cleared : Cleared archive b o t)
  | combined (uncleared : ¬ Cleared archive b o t)
  | admitted {aggregated : V2StatusAssessment} {ms : List V2AudienceMembership}
      {result : V2AudienceAssessment}
      (deferred : a.deferred = (deferredConstraints archive b o t).filter fun d => !d.isAudience)
      (status : StatusCurrent log b aggregated) (fresh : a.statusFreshUntil = aggregated.freshUntil)
      (passed : AudiencePassed archive t log b o ms result)
      (audience : a.audienceFreshUntil = result.freshUntil) (cleared : Cleared archive b o t)

variable {P archive t log b o} {t' : V2EvaluationToken} {c : TokenCall}
  {a : V2LocalAuthorizationAssessment} {aggregated : V2StatusAssessment}
  {ms : List V2AudienceMembership} {result : V2AudienceAssessment}

/-! ## More calls -/

theorem StatusCurrent.snoc (h : StatusCurrent log b aggregated) :
    StatusCurrent (log ++ [c]) b aggregated where
  answered := by
    obtain ⟨aggregate, hmem, hok⟩ := h.answered
    exact ⟨aggregate, List.mem_append_left _ hmem, hok⟩
  current := h.current

theorem AudiencePassed.snoc (h : AudiencePassed archive t log b o ms result) :
    AudiencePassed archive t (log ++ [c]) b o ms result where
  answered := List.mem_append_left _ h.answered
  evaluated := h.evaluated
  passed := h.passed

theorem RateAdmitted.snoc (h : RateAdmitted archive t log b o) :
    RateAdmitted archive t (log ++ [c]) b o where
  answered := by
    obtain ⟨cancelled, store, answer, hmem, hadmitted⟩ := h.answered
    exact ⟨cancelled, store, answer, List.mem_append_left _ hmem, hadmitted⟩
  batch := h.batch

theorem Waiting.snoc (h : Waiting archive t log b o a) : Waiting archive t (log ++ [c]) b o a := by
  cases h with
  | unanswered deferred status audience => exact .unanswered deferred status audience
  | current deferred status fresh audience cleared =>
    exact .current deferred status.snoc fresh audience cleared
  | combined uncleared => exact .combined uncleared
  | admitted deferred status fresh passed audience cleared =>
    exact .admitted deferred status.snoc fresh passed.snoc audience cleared

theorem Granted.snoc {horizon : Int} (h : Granted P archive t log b o horizon) :
    Granted P archive t (log ++ [c]) b o horizon where
  evaluated := List.mem_append_left _ h.evaluated
  examined := h.examined
  cleared := h.cleared
  rate := h.rate.imp RateAdmitted.snoc id
  settled := by
    obtain ⟨aggregated, memberships, hstatus, haudience, hglb⟩ := h.settled
    refine ⟨aggregated, memberships, hstatus.snoc, ?_, hglb⟩
    cases memberships with
    | none => exact haudience
    | some ms =>
      obtain ⟨result, hpassed⟩ := haudience
      exact ⟨result, hpassed.snoc⟩

/-! ## Deferred constraints -/

/-- A constraint of a later stage is deferred, where no constraint has failed. -/
theorem mem_deferred_of_placed (h : Cleared archive b o t) {p : PlacedConstraint}
    (hp : p ∈ b.placed) (hkind : p.constraint.kind = constraintMaxRate
      ∨ p.constraint.kind = constraintReceiverAudience) :
    ∃ d ∈ deferredConstraints archive b o t, d.kind = p.constraint.kind := by
  have hpassed := h.constraints p hp
  cases hjson : p.constraint.canonicalJson with
  | error e =>
    rw [PlacedConstraint.verdict, localVerdict, if_pos hkind, hjson] at hpassed
    cases hpassed
  | ok encoded =>
    have hpostponed := congrArg LocalVerdict.postponed
      (verdict_staged (s := t.localInputs archive o) hkind hjson)
    rw [deferredConstraints, evaluateV2LocalConstraints_deferred]
    exact ⟨_, List.mem_filterMap.mpr ⟨p, hp, hpostponed⟩, rfl⟩

theorem kind_of_deferred {d : V2DeferredConstraint} (hd : d ∈ deferredConstraints archive b o t) :
    d.kind = constraintMaxRate ∨ d.kind = constraintReceiverAudience := by
  rw [deferredConstraints, evaluateV2LocalConstraints_deferred, List.mem_filterMap] at hd
  obtain ⟨p, -, hpostponed⟩ := hd
  obtain ⟨hkind, -, heq⟩ := postponed_eq_some hpostponed
  rw [heq]
  exact hkind

theorem distinctPositions_deferred :
    DistinctPositions (deferredConstraints archive b o t) := by
  have hpositions : ((deferredConstraints archive b o t).map V2DeferredConstraint.position).Sublist
      (b.placed.map PlacedConstraint.position) := by
    rw [deferredConstraints, evaluateV2LocalConstraints_deferred]
    generalize b.placed = ps
    induction ps with
    | nil => exact .slnil
    | cons p ps ih =>
      cases hpostponed : (p.verdict (t.localInputs archive o)).postponed with
      | none =>
        have hnone : (p :: ps).filterMap (fun p => (p.verdict (t.localInputs archive o)).postponed)
            = ps.filterMap fun p => (p.verdict (t.localInputs archive o)).postponed :=
          List.filterMap_cons_none hpostponed
        rw [hnone]
        exact ih.cons _
      | some d =>
        have hsome : (p :: ps).filterMap (fun p => (p.verdict (t.localInputs archive o)).postponed)
            = d :: ps.filterMap fun p => (p.verdict (t.localInputs archive o)).postponed :=
          List.filterMap_cons_some hpostponed
        rw [hsome]
        obtain ⟨-, -, heq⟩ := postponed_eq_some hpostponed
        have hsame : d.position = p.position := by
          rw [heq]
          rfl
        rw [List.map_cons, List.map_cons, hsame]
        exact ih.cons_cons _
  rw [DistinctPositions]
  exact (nodup_placed_position b).sublist ((List.filter_sublist.map _).trans hpositions)

theorem delegations_ne_nil (h : Examined P b o t) : b.delegations ≠ [] := by
  obtain ⟨root, hroot, -⟩ := h.chain.root
  intro hnil
  rw [hnil] at hroot
  cases hroot

/-! ## The parts of an assessment -/

theorem LocalKept.parts (h : LocalKept archive t b o a) (hcleared : Cleared archive b o t) :
    LocalParts archive b o t a := by
  obtain ⟨until_, hwindow⟩ := hcleared.windows
  have hlocal := localFailure_eq_none_iff.mpr hcleared
  have hhorizon : windowHorizon archive b o t = .ok until_ := by
    rw [windowHorizon, (Option.or_eq_none_iff.mp hlocal).1]
    exact hwindow
  have huntil : a.localTimeValidUntil = until_ := by
    rw [h.window, hhorizon]
    rfl
  exact { delegation := h.delegation, window := huntil ▸ hwindow, extension := h.extension }

theorem LocalKept.cleared_iff (h : LocalKept archive t b o a) :
    a.localPolicyFailure = none ↔ Cleared archive b o t := by
  rw [h.failure, localFailure_eq_none_iff]

theorem localKept_local : LocalKept archive t b o ((pendingV2LocalAssessment archive b o t).claimed t)
    where
  failure := rfl
  checks := rfl
  delegation := rfl
  window := rfl
  extension := rfl

/-- The fields that the stages write are none of those that are kept. -/
theorem LocalKept.of_eq (h : LocalKept archive t b o a) {a' : V2LocalAuthorizationAssessment}
    (hfailure : a'.localPolicyFailure = a.localPolicyFailure)
    (hchecks : a'.statusChecks = a.statusChecks)
    (hdelegation : a'.delegationValidUntil = a.delegationValidUntil)
    (hwindow : a'.localTimeValidUntil = a.localTimeValidUntil)
    (hextension : a'.extensionValidUntil = a.extensionValidUntil) : LocalKept archive t b o a' where
  failure := hfailure.trans h.failure
  checks := hchecks.trans h.checks
  delegation := hdelegation.trans h.delegation
  window := hwindow.trans h.window
  extension := hextension.trans h.extension

/-! ## Steps -/

/-- What every run of a token keeps. -/
structure TokenInv (P : Primitives) (archive : ZoneArchive) (t : V2EvaluationToken)
    (log : List TokenCall) (t' : V2EvaluationToken) : Prop where
  same : SameToken t t'
  waiting : ∀ a, t'.pending = some a → t'.evaluatedAt = t.claimedAt ∧ ∃ b o,
    .evaluate b o ∈ log ∧ Examined P b o t ∧ LocalKept archive t b o a ∧ Waiting archive t log b o a
  granted : t'.m.evaluationStatus = "authorized_agent" →
    ∃ b o, Granted P archive t log b o t'.m.allowValidUntil

/-- A call that leaves a token closed. -/
theorem TokenInv.closed (hsame : SameToken t t') (h : Closed t') :
    TokenInv P archive t log t' where
  same := hsame
  waiting := fun a ha => absurd (h.pending.symm.trans ha) (by simp)
  granted := fun hauth => absurd hauth h.unauthorized

/-- A call that leaves a token as it is. -/
theorem TokenInv.snoc (h : TokenInv P archive t log t') : TokenInv P archive t (log ++ [c]) t' where
  same := h.same
  waiting := by
    intro a ha
    obtain ⟨htime, b, o, hmem, hexamined, hkept, hwaiting⟩ := h.waiting a ha
    exact ⟨htime, b, o, List.mem_append_left _ hmem, hexamined, hkept, hwaiting.snoc⟩
  granted := by
    intro hauth
    obtain ⟨b, o, hgranted⟩ := h.granted hauth
    exact ⟨b, o, hgranted.snoc⟩

/-! ### One claim -/

theorem SameToken.refl (t : V2EvaluationToken) : SameToken t t := rfl

theorem SameToken.trans {t'' : V2EvaluationToken} (h : SameToken t t') (h' : SameToken t' t'') :
    SameToken t t'' := by
  rw [SameToken] at h'
  rw [h', h]
  rfl

theorem SameToken.timed (h : SameToken t t') (htimed : t.Timed) : t'.Timed := by
  rw [h]
  exact ⟨htimed.skew, htimed.claimed⟩

theorem SameToken.examined (h : SameToken t t') (hexamined : Examined P b o t') :
    Examined P b o t := by
  rw [h] at hexamined
  obtain ⟨hscope, hskew, hhash, hanswers, hform, hchain, hpolicy⟩ := hexamined.sealedProof
  exact
    { claimTime := hexamined.claimTime, challenge := hexamined.challenge
      sealedProof := ⟨hscope, hskew, hhash, hanswers, hform, hchain, hpolicy⟩
      chain := hexamined.chain }

theorem SameToken.local_eq (h : SameToken t t') :
    (pendingV2LocalAssessment archive b o t').claimed t'
      = (pendingV2LocalAssessment archive b o t).claimed t := by
  rw [h]
  rfl

theorem SameToken.settle (h : SameToken t t') (a : V2LocalAuthorizationAssessment) :
    SameToken t (t'.settle a) := h.trans rfl

/-! ### The stages -/

section Stages

variable (hinv : TokenInv P archive t log t') (htimed : t.Timed)
include hinv htimed

theorem TokenInv.evaluate (b : ProofBundleV2) (o : V2LocalAuthorizationOptions) :
    TokenInv P archive t (log ++ [.evaluate b o]) (t'.evaluate P archive b o).2 := by
  obtain hsame | ⟨hsame, hclosed | ⟨hexamined, htime, hstatus, hpending⟩⟩ :=
    evaluate_cases (hinv.same.timed htimed) P archive b o
  · rw [hsame]
    exact hinv.snoc
  · exact .closed (hinv.same.trans hsame) hclosed
  refine ⟨hinv.same.trans hsame, fun a ha => ?_, fun hauth => ?_⟩
  · rw [hpending, hinv.same.local_eq] at ha
    obtain rfl := Option.some.inj ha
    have hclaimed : t'.claimedAt = t.claimedAt := by rw [hinv.same]
    exact ⟨htime.trans hclaimed, b, o, List.mem_append_right _ (List.mem_singleton.mpr rfl),
      hinv.same.examined hexamined, localKept_local, .unanswered rfl rfl rfl⟩
  · rw [hstatus] at hauth
    exact absurd hauth (by decide)

omit htimed in
/-- What a stage has that goes on from a pending assessment. -/
theorem TokenInv.ready (ha : t'.pending = some a) : t'.evaluatedAt = t.claimedAt
    ∧ t'.evaluationComplete = true ∧ ∃ b o, .evaluate b o ∈ log ∧ Examined P b o t
      ∧ LocalKept archive t b o a ∧ Waiting archive t log b o a
      ∧ ∀ f, a.localPolicyFailure = some f → f.Refuses := by
  obtain ⟨htime, b, o, hmem, hexamined, hkept, hwaiting⟩ := hinv.waiting a ha
  refine ⟨htime, (pending_eq_some ha).1, b, o, hmem, hexamined, hkept, hwaiting, fun f hf => ?_⟩
  exact refuses_localFailure (hkept.failure.symm.trans hf)

end Stages

theorem claimedAt_nonneg (htimed : t.Timed) (h : Examined P b o t) : 0 ≤ t.claimedAt :=
  (validV2Timestamp_iff.mp (htimed.claimed h.claimTime)).1

/-- An allow that rests on no audience. -/
theorem granted_without (htimed : t.Timed) (hmem : .evaluate b o ∈ log)
    (hexamined : Examined P b o t) (hkept : LocalKept archive t b o a)
    (hcleared : Cleared archive b o t) (hstatus : StatusCurrent log b aggregated)
    (hfresh : a.statusFreshUntil = aggregated.freshUntil) (hzero : a.audienceFreshUntil = 0)
    (haudience : ∀ d ∈ deferredConstraints archive b o t, d.kind ≠ constraintReceiverAudience)
    (hrate : RateAdmitted archive t log b o
      ∨ ∀ d ∈ deferredConstraints archive b o t, d.kind ≠ constraintMaxRate) :
    Granted P archive t log b o (allowHorizonV2 a) where
  evaluated := hmem
  examined := hexamined
  cleared := hcleared
  rate := by
    refine hrate.imp id fun hnone p hp hkind => ?_
    obtain ⟨d, hd, hsame⟩ := mem_deferred_of_placed hcleared hp (.inl hkind)
    exact hnone d hd (hsame.trans hkind)
  settled := by
    refine ⟨aggregated, none, hstatus, fun p hp hkind => ?_, ?_⟩
    · obtain ⟨d, hd, hsame⟩ := mem_deferred_of_placed hcleared hp (.inr hkind)
      exact haudience d hd (hsame.trans hkind)
    · exact (hkept.parts hcleared).isGLB_without (delegations_ne_nil hexamined)
        (claimedAt_nonneg htimed hexamined) hfresh hzero

/-- An allow after the audience has passed. -/
theorem granted_with (htimed : t.Timed) (hmem : .evaluate b o ∈ log)
    (hexamined : Examined P b o t) (hkept : LocalKept archive t b o a)
    (hcleared : Cleared archive b o t) (hstatus : StatusCurrent log b aggregated)
    (hfresh : a.statusFreshUntil = aggregated.freshUntil)
    (hpassed : AudiencePassed archive t log b o ms result)
    (hlasts : a.audienceFreshUntil = result.freshUntil)
    (hrate : RateAdmitted archive t log b o
      ∨ ∀ d ∈ deferredConstraints archive b o t, d.kind ≠ constraintMaxRate) :
    Granted P archive t log b o (allowHorizonV2 a) where
  evaluated := hmem
  examined := hexamined
  cleared := hcleared
  rate := by
    refine hrate.imp id fun hnone p hp hkind => ?_
    obtain ⟨d, hd, hsame⟩ := mem_deferred_of_placed hcleared hp (.inl hkind)
    exact hnone d hd (hsame.trans hkind)
  settled := by
    refine ⟨aggregated, some ms, hstatus, ⟨result, hpassed⟩, ?_⟩
    exact (hkept.parts hcleared).isGLB_with (delegations_ne_nil hexamined)
      (claimedAt_nonneg htimed hexamined) hfresh hlasts distinctPositions_deferred hpassed.evaluated
      hpassed.passed

/-- A token that a stage has authorized. -/
theorem TokenInv.authorized (hsame : SameToken t t') (hstatus : a.status = "authorized_agent")
    (hgranted : Granted P archive t log b o (allowHorizonV2 a)) :
    TokenInv P archive t log (t'.settle a) where
  same := hsame.settle a
  waiting := by
    intro a' ha'
    have hpending : a.status = "pending_external_checks" := (pending_eq_some ha').2.1
    rw [hstatus] at hpending
    exact absurd hpending (by decide)
  granted := by
    intro _
    refine ⟨b, o, ?_⟩
    rw [V2EvaluationToken.settle, if_pos hstatus]
    exact hgranted

/-- A token that a stage has left pending. -/
theorem TokenInv.pending (hsame : SameToken t t') (htime : t'.evaluatedAt = t.claimedAt)
    (hcomplete : t'.evaluationComplete = true) (hstatus : a.status = "pending_external_checks")
    (hmem : .evaluate b o ∈ log) (hexamined : Examined P b o t) (hkept : LocalKept archive t b o a)
    (hwaiting : Waiting archive t log b o a) : TokenInv P archive t log (t'.settle a) where
  same := hsame.settle a
  waiting := by
    intro a' ha'
    rw [pending_settle hcomplete hstatus] at ha'
    obtain rfl := Option.some.inj ha'
    exact ⟨htime, b, o, hmem, hexamined, hkept, hwaiting⟩
  granted := by
    intro hauth
    have hauth : a.status = "authorized_agent" := hauth
    rw [hstatus] at hauth
    exact absurd hauth (by decide)

/-- A pass of an audience stage that has no audience constraint is no pass. -/
theorem exists_audience_of_ok {deferred : List V2DeferredConstraint} {receiverId : String}
    {now futureSkew : Int} (hdistinct : DistinctPositions deferred)
    (h : evaluateReceiverAudience deferred receiverId ms now futureSkew = .ok result) :
    ∃ d ∈ deferred, d.isAudience = true := by
  obtain ⟨-, links, hlinks, hne, -⟩ := (evaluateReceiverAudience_eq_ok_iff hdistinct).mp h
  by_contra hnone
  have hfilter : deferred.filter V2DeferredConstraint.isAudience = [] := by
    rw [List.filter_eq_nil_iff]
    exact fun d hd haudience => hnone ⟨d, hd, haudience⟩
  rw [SealedLinks, hfilter] at hlinks
  exact hne (List.forall₂_nil_left_iff.mp hlinks)

theorem TokenInv.status (hinv : TokenInv P archive t log t') (htimed : t.Timed)
    (aggregate : List V2CertificateStatusCheck → V2Result V2StatusAssessment) :
    TokenInv P archive t (log ++ [.status aggregate]) (t'.afterStatus aggregate).2 := by
  obtain hsame | ⟨a, a', aggregated, ha, haggregate, hresolve, heq⟩ := afterStatus_cases aggregate
  · rw [hsame]
    exact hinv.snoc
  rw [heq]
  obtain ⟨htime, hcomplete, b, o, hmem, hexamined, hkept, hwaiting, hfailure⟩ := hinv.ready ha
  have hlog {c : TokenCall} (hc : c ∈ log) : c ∈ log ++ [TokenCall.status aggregate] :=
    List.mem_append_left _ hc
  obtain hrefuses | ⟨hcurrent, hcases⟩ := resolveStatus_cases hresolve hfailure
  · exact .closed (hinv.same.settle a') (closed_settle hrefuses)
  have hstatus : StatusCurrent (log ++ [.status aggregate]) b aggregated :=
    { answered := ⟨aggregate, List.mem_append_right _ (List.mem_singleton.mpr rfl),
        hkept.checks ▸ haggregate⟩
      current := hcurrent }
  obtain ⟨hnone, hempty, rfl⟩ | ⟨hnone, -, rfl⟩ | ⟨hcombinable, rfl⟩ := hcases
  · -- Nothing is deferred, and the status was the last thing to ask for.
    have hcleared := hkept.cleared_iff.mp hnone
    have hkept' : LocalKept archive t b o ((a.withStatus aggregated).authorize
      "proof, status, and local authorization checks passed") := hkept.of_eq rfl rfl rfl rfl rfl
    refine .authorized (b := b) (o := o) hinv.same rfl ?_
    have hbare (hdeferred : a.deferred = deferredConstraints archive b o t)
        (hzero : a.audienceFreshUntil = 0) := granted_without htimed (hlog hmem) hexamined hkept'
      hcleared hstatus rfl hzero (by simp [← hdeferred, hempty])
      (.inr (by simp [← hdeferred, hempty]))
    cases hwaiting with
    | unanswered hdeferred _ hzero => exact hbare hdeferred hzero
    | current hdeferred _ _ hzero _ => exact hbare hdeferred hzero
    | combined uncleared => exact absurd hcleared uncleared
    | admitted hdeferred _ _ hpassed haudience _ =>
      refine granted_with htimed (hlog hmem) hexamined hkept' hcleared hstatus rfl hpassed.snoc
        haudience (.inr fun d hd hkind => ?_)
      have hmissing : d ∈ a.deferred := by
        rw [hdeferred]
        exact List.mem_filter.mpr ⟨hd, by simp [V2DeferredConstraint.isAudience, hkind,
          rate_ne_audience]⟩
      rw [hempty] at hmissing
      cases hmissing
  · have hcleared := hkept.cleared_iff.mp hnone
    refine .pending hinv.same htime hcomplete rfl (hlog hmem) hexamined
      (hkept.of_eq rfl rfl rfl rfl rfl) ?_
    cases hwaiting with
    | unanswered hdeferred _ hzero => exact .current hdeferred hstatus rfl hzero hcleared
    | current hdeferred _ _ hzero _ => exact .current hdeferred hstatus rfl hzero hcleared
    | combined uncleared => exact absurd hcleared uncleared
    | admitted hdeferred _ _ hpassed haudience _ =>
      exact .admitted hdeferred hstatus rfl hpassed.snoc haudience hcleared
  · refine .pending hinv.same htime hcomplete rfl (hlog hmem) hexamined
      (hkept.of_eq rfl rfl rfl rfl rfl) (.combined fun hcleared => ?_)
    rw [hkept.cleared_iff.mpr hcleared] at hcombinable
    cases hcombinable

theorem TokenInv.audience (hinv : TokenInv P archive t log t') (htimed : t.Timed)
    (ms : List V2AudienceMembership) :
    TokenInv P archive t (log ++ [.audience ms]) (t'.afterAudience ms).2 := by
  obtain hsame | hsame | ⟨a, result, ha, hcurrent, hresult, heq⟩ := afterAudience_cases ms
  · rw [hsame]
    exact hinv.snoc
  · rw [hsame]
    exact .closed (hinv.same.trans rfl) closed_mismatched
  rw [heq]
  obtain ⟨htime, hcomplete, b, o, hmem, hexamined, hkept, hwaiting, hfailure⟩ := hinv.ready ha
  have hlog {c : TokenCall} (hc : c ∈ log) : c ∈ log ++ [TokenCall.audience ms] :=
    List.mem_append_left _ hc
  obtain hrefuses | ⟨hnone, hpassed, hcases⟩ := resolveAudience_cases a result hfailure
  · exact .closed (hinv.same.settle _) (closed_settle hrefuses)
  have hcleared := hkept.cleared_iff.mp hnone
  cases hwaiting with
  | unanswered _ hstatus _ =>
    rw [hstatus] at hcurrent
    exact absurd hcurrent (by decide)
  | combined uncleared => exact absurd hcleared uncleared
  | admitted hdeferred _ _ _ _ _ =>
    have hdistinct : DistinctPositions a.deferred := by
      rw [hdeferred, DistinctPositions, List.filter_filter]
      simp
    obtain ⟨d, hd, haudience⟩ := exists_audience_of_ok hdistinct hresult
    rw [hdeferred] at hd
    simp [haudience] at hd
  | current hdeferred hstatus hfresh hzero _ =>
    have hsealed : t'.expected = t.expected ∧ t'.futureSkew = t.futureSkew := by
      rw [hinv.same]
      exact ⟨rfl, rfl⟩
    have haudience : AudiencePassed archive t (log ++ [.audience ms]) b o ms result :=
      { answered := List.mem_append_right _ (List.mem_singleton.mpr rfl)
        evaluated := by
          rw [← hdeferred, ← htime, ← hsealed.1, ← hsealed.2]
          exact hresult
        passed := hpassed }
    obtain ⟨hall, hauthorized⟩ | hpending := hcases
    · rw [hauthorized]
      refine .authorized (b := b) (o := o) hinv.same rfl ?_
      refine granted_with htimed (hlog hmem) hexamined (hkept.of_eq rfl rfl rfl rfl rfl) hcleared
        hstatus.snoc hfresh haudience rfl (.inr fun d hd hkind => ?_)
      have hisAudience := hall d (hdeferred ▸ hd)
      rw [V2DeferredConstraint.isAudience, hkind] at hisAudience
      exact absurd (beq_iff_eq.mp hisAudience) rate_ne_audience
    · rw [hpending]
      refine .pending hinv.same htime hcomplete rfl (hlog hmem) hexamined
        (hkept.of_eq rfl rfl rfl rfl rfl) ?_
      exact .admitted (congrArg _ hdeferred) hstatus.snoc hfresh haudience rfl hcleared

theorem TokenInv.rate (hinv : TokenInv P archive t log t') (htimed : t.Timed) (cancelled : Bool)
    (store : RateStore) (answer : Option (V2StoreResult Unit)) :
    TokenInv P archive t (log ++ [.rate cancelled store answer])
      ((t'.afterRate cancelled store).answered answer).2 := by
  obtain hsame | hsame | ⟨a, hready, ⟨hclosed, hsame⟩ | ⟨hadmitted, rateAtFinalization, detail,
    admissionDeferred, heq⟩⟩ := afterRate_cases (t := t') cancelled store answer
  · rw [hsame]
    exact hinv.snoc
  · rw [hsame]
    exact .closed (hinv.same.trans rfl) closed_mismatched
  · exact .closed (hinv.same.trans hsame) hclosed
  rw [heq]
  obtain ⟨-, -, b, o, hmem, hexamined, hkept, hwaiting, -⟩ := hinv.ready hready.pending
  have hcleared := hkept.cleared_iff.mp hready.cleared
  have hsealed : t'.rateBatch = t.rateBatch := by rw [hinv.same]
  have hlog : TokenCall.rate cancelled store answer ∈ log ++ [.rate cancelled store answer] :=
    List.mem_append_right _ (List.mem_singleton.mpr rfl)
  have hrate (hdeferred : a.deferred
      = (deferredConstraints archive b o t).filter fun d => !d.isAudience) :
      RateAdmitted archive t (log ++ [.rate cancelled store answer]) b o :=
    { answered := ⟨cancelled, store, answer, hlog, hadmitted⟩
      batch := by
        rw [← hdeferred, ← hsealed]
        exact hready.batch }
  refine .authorized (b := b) (o := o) (hinv.same.trans rfl) rfl ?_
  cases hwaiting with
  | unanswered _ hstatus _ =>
    have hcurrent := hready.current
    rw [hstatus] at hcurrent
    exact absurd hcurrent (by decide)
  | combined uncleared => exact absurd hcleared uncleared
  | current hdeferred hstatus hfresh hzero _ =>
    have hkinds : ∀ d ∈ deferredConstraints archive b o t, d.kind ≠ constraintReceiverAudience := by
      intro d hd hkind
      exact rate_ne_audience ((hready.rates d (hdeferred ▸ hd)).symm.trans hkind)
    have hfilter : (deferredConstraints archive b o t).filter (fun d => !d.isAudience)
        = deferredConstraints archive b o t := by
      rw [List.filter_eq_self]
      intro d hd
      simpa [V2DeferredConstraint.isAudience] using hkinds d hd
    exact granted_without htimed (List.mem_append_left _ hmem) hexamined
      (hkept.of_eq rfl rfl rfl rfl rfl) hcleared hstatus.snoc hfresh hzero hkinds
      (.inl (hrate (hdeferred.trans hfilter.symm)))
  | admitted hdeferred hstatus hfresh hpassed haudience _ =>
    exact granted_with htimed (List.mem_append_left _ hmem) hexamined
      (hkept.of_eq rfl rfl rfl rfl rfl) hcleared hstatus.snoc hfresh hpassed.snoc haudience
      (.inl (hrate hdeferred))

theorem TokenInv.finalize (hinv : TokenInv P archive t log t') (rateView cancelled : Bool)
    (payload : Payload) (answer : V2StoreResult Bool) :
    TokenInv P archive t (log ++ [.finalize rateView cancelled payload answer])
      (TokenCall.perform P archive t' (.finalize rateView cancelled payload answer)) := by
  obtain ⟨heq, hcases⟩ := finalize_cases (P := P) rateView cancelled t'.toTokenState payload answer
  rw [TokenCall.perform, heq]
  obtain hback | ⟨hstatus, hhorizon⟩ := hcases
  · refine .closed (hinv.same.trans rfl) (closed_of_status ?_)
    rw [hback]
    exact ⟨by decide, by decide⟩
  · refine ⟨hinv.same.trans rfl, fun a ha => ?_, fun hauth => ?_⟩
    · have hpending : t'.pending = some a := by
        rw [V2EvaluationToken.pending] at ha ⊢
        dsimp only at ha
        rw [hstatus] at ha
        exact ha
      exact hinv.snoc.waiting a hpending
    · have hauth : t'.m.evaluationStatus = "authorized_agent" := hstatus.symm.trans hauth
      obtain ⟨b, o, hgranted⟩ := hinv.snoc.granted hauth
      exact ⟨b, o, hhorizon ▸ hgranted⟩

/-! ## Runs -/

/-- Every call keeps the invariant. -/
theorem TokenInv.perform (hinv : TokenInv P archive t log t') (htimed : t.Timed) (c : TokenCall) :
    TokenInv P archive t (log ++ [c]) (c.perform P archive t') := by
  cases c with
  | evaluate b o => exact hinv.evaluate htimed b o
  | status aggregate => exact hinv.status htimed aggregate
  | audience ms => exact hinv.audience htimed ms
  | rate cancelled store answer => exact hinv.rate htimed cancelled store answer
  | interrupt => exact .closed (hinv.same.trans rfl) closed_interrupt
  | finalize rateView cancelled payload answer =>
    exact hinv.finalize rateView cancelled payload answer

theorem TokenRun.inv (hrun : TokenRun P archive t log t') (htimed : t.Timed)
    (hclosed : Closed t) : TokenInv P archive t log t' := by
  refine hrun.history (TokenInv P archive t) (.closed (.refl t) hclosed) fun log u c v _ hu hv => ?_
  rw [hv]
  exact hu.perform htimed c

end RatifyProtocol.V2
