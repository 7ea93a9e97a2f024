import RatifyProtocol.V2.Authorization.TokenLaw
import RatifyProtocol.V2.Authorization.Verify
set_option autoImplicit false

/-!
# Authorization: runs of a verification

What a verification may ask and how it may end, said of the questions and answers so far:
the claim before everything else, the progress of a check before and after the check, an
allow only where every answer behind it has been heard.
-/

namespace RatifyProtocol.V2

open Foundation

/-- What a verification has asked, and what it was answered. -/
abbrev VerifyLog : Type := List (Sigma VerifyCall.Reply)

/-- What the claim store was asked to commit. -/
def VerifyLog.finalizations (log : VerifyLog) : List Submission :=
  log.filterMap fun q =>
    match q.1 with
    | .finalize submission => some submission
    | _ => none

/-- The claim store has committed a result. -/
def VerifyLog.Commits (log : VerifyLog) : Prop :=
  ∃ submission fresh, (⟨.finalize submission, some (.ok fresh)⟩ : Sigma VerifyCall.Reply) ∈ log

/-- The claim may be made, and nothing more. -/
def VerifyLog.Quiet (log : VerifyLog) : Prop :=
  ∀ q ∈ log, q.1 = .done ∨ ∃ claim, q.1 = .claim claim

/-- A membership list that the audience provider has answered; none is empty. -/
def VerifyLog.MembershipsHeard (log : VerifyLog) (ms : List V2AudienceMembership) : Prop :=
  ms = [] ∨ ∃ deferred receiverId,
    (⟨.audience deferred receiverId, some (.ok ms)⟩ : Sigma VerifyCall.Reply) ∈ log

variable (P : Primitives) (archive : ZoneArchive) (req : V2VerifyRequest) (cb : V2VerifyCallbacks)

/-! ## Sessions -/

/-- A claim of a request that may be created. -/
structure Session where
  rateView : Bool
  bundle : ProofBundleV2
  expected : ExpectedChallengeStateV2
  claim : V2ChallengeClaim
  claimedAt : Int
  ownerToken : Bytes
  preflight : verifyPreflight P req cb = .ok (rateView, bundle, expected)
  sealing : sealChallengeClaim P expected bundle req.verifierNamespace req.replayEpoch req.now
    = .ok claim
  owner : ownerToken.length = 32

namespace Session

variable {P req cb} (s : Session P req cb) (log : VerifyLog)

def token : V2EvaluationToken := .ofClaim s.expected s.claim s.claimedAt s.ownerToken

/-- The claim store has created the claim for this call. -/
def Opened : Prop :=
  (⟨.claim s.claim, some (.ok ⟨.created, s.claimedAt, s.ownerToken⟩)⟩ : Sigma VerifyCall.Reply) ∈ log

/-- The claim store has the progress. -/
def Recorded (p : V2EvaluationProgress) : Prop :=
  (⟨.progress s.claim.claimId s.ownerToken p, some (.ok ())⟩ : Sigma VerifyCall.Reply) ∈ log

/-- The trust provider has been answered by this root of the chain. -/
structure Trusted (root : DelegationCertV2) (resolution : V2TrustResolution) : Prop where
  last : s.bundle.delegations.getLast? = some root
  answered : (⟨.trust s.bundle.delegations, some (.ok resolution)⟩ : Sigma VerifyCall.Reply) ∈ log
  outcome : resolution.outcome = .trusted
  keyId : keyIdV2 P resolution.rootKey = .ok root.issuerId
  key : resolution.rootKey = root.issuerPubKey

/-- The status of the chain as it was answered. -/
def StatusHeard (answer : V2StatusAssessment) : Prop :=
  (⟨.status (statusChecks s.bundle) s.claimedAt, (answer, false)⟩ : Sigma VerifyCall.Reply) ∈ log

/-- The status of the chain was answered as current, and this was recorded. -/
def Current : Prop :=
  ∃ answer p, s.StatusHeard log answer ∧ answer.assessment = "current"
    ∧ s.Recorded log p ∧ p.trustAssessment = "trusted" ∧ p.statusAssessment = "current"
    ∧ p.statusEvidence = answer.evidence

/-- What the rate store is asked to reserve. -/
def reservation : Reservation := ⟨s.claim.claimId, s.ownerToken, s.claim.bundleHash, s.claim.rateBatch⟩

/-- The rates of the claim are reserved, or admitted when its result is committed. -/
def RateHeard : Prop :=
  cb.rate = .atFinalization ∨ cb.rate = .reserving
    ∧ (⟨.rate s.reservation, some (.ok ())⟩ : Sigma VerifyCall.Reply) ∈ log

/-- Everything behind an allow, from the answers that were heard. -/
structure AllowHeard (horizon : Int) (root : DelegationCertV2) (resolution : V2TrustResolution)
    (o : V2LocalAuthorizationOptions) (status : V2StatusAssessment)
    (memberships : Option (List V2AudienceMembership)) : Prop where
  opened : s.Opened log
  trusted : s.Trusted log root resolution
  options : o = (resolveTrust P root (some resolution) req.options).2
  examined : Examined P s.bundle o s.token
  cleared : Cleared archive s.bundle o s.token
  current : s.StatusHeard log status ∧ status.assessment = "current"
  audience : match memberships with
    | none => ∀ p ∈ s.bundle.placed, p.constraint.kind ≠ constraintReceiverAudience
    | some ms => log.MembershipsHeard ms ∧ ∃ result,
      evaluateReceiverAudience (deferredConstraints archive s.bundle o s.token)
          s.expected.expectedReceiverId ms s.claimedAt s.expected.futureSkew = .ok result
        ∧ result.status = .passed
  rate : s.RateHeard log ∨ ∀ p ∈ s.bundle.placed, p.constraint.kind ≠ constraintMaxRate
  horizon : 0 < horizon
    ∧ IsGLB (allowDeadlines archive s.bundle o s.token status memberships) horizon

/-- An allow until `horizon` rests on answers that were heard. -/
def Allowed (horizon : Int) : Prop :=
  ∃ root resolution o status memberships,
    s.AllowHeard archive log horizon root resolution o status memberships

end Session

/-! ## What a verification may do -/

/-- The receipt body of a submission states an allow. -/
def Submission.Allows (submission : Submission) : Prop :=
  ∃ reason identity, bodyOutcome submission.payload.receiptBody.1 = some ("allow", reason, identity)

/-- The receipt body of a submission states that a constraint denies. -/
def Submission.Denies (submission : Submission) : Prop :=
  bodyOutcome submission.payload.receiptBody.1
    = some ("deny", "constraint_denied", "constraint_denied")

/-- When each question of a verification is due. -/
inductive Due (log : VerifyLog) : VerifyCall → Prop
  | done : Due log .done
  | claim {rateView : Bool} {b : ProofBundleV2} {expected : ExpectedChallengeStateV2}
      {claim : V2ChallengeClaim} (preflight : verifyPreflight P req cb = .ok (rateView, b, expected))
      (sealing : sealChallengeClaim P expected b req.verifierNamespace req.replayEpoch req.now
        = .ok claim)
      (first : ∀ q ∈ log, q.1 = .done) : Due log (.claim claim)
  | progress (s : Session P req cb) (opened : s.Opened log) {p : V2EvaluationProgress}
      (valid : validateV2EvaluationProgressInner p = .ok ()) :
      Due log (.progress s.claim.claimId s.ownerToken p)
  | trust (s : Session P req cb) (opened : s.Opened log)
      (started : s.Recorded log { initialV2EvaluationProgress with trustAssessment := "unavailable" }) :
      Due log (.trust s.bundle.delegations)
  | status (s : Session P req cb) (opened : s.Opened log) {p : V2EvaluationProgress}
      (recorded : s.Recorded log p) (trusted : p.trustAssessment = "trusted")
      (started : p.statusAssessment = "unavailable") :
      Due log (.status (statusChecks s.bundle) s.claimedAt)
  | audience (s : Session P req cb) (opened : s.Opened log) (current : s.Current log)
      {deferred : List V2DeferredConstraint} (audience : ∀ d ∈ deferred, d.isAudience = true)
      {receiverId : String} : Due log (.audience deferred receiverId)
  | rate (s : Session P req cb) (opened : s.Opened log) (current : s.Current log) :
      Due log (.rate s.reservation)
  | finalize (s : Session P req cb) (opened : s.Opened log) {submission : Submission}
      (capability : submission.claimId = s.claim.claimId ∧ submission.ownerToken = s.ownerToken)
      (sealed : validateV2FinalizationPayload s.claim submission.payload.terminalResult.1
        submission.payload.receiptBody.1 = .ok ())
      (recorded : ∀ answer, s.StatusHeard log answer → ∃ p, s.Recorded log p
        ∧ p.statusAssessment = answer.assessment ∧ p.statusEvidence = answer.evidence)
      (horizon : submission.allowValidUntil ≠ 0 ↔ submission.Allows)
      -- The one retry is a denial, of a result that the store has rolled back.
      (attempt : log.finalizations = [] ∨ submission.Denies ∧ submission.allowValidUntil = 0
        ∧ ∃ first, log.finalizations = [first]
          ∧ (⟨.finalize first, some (.error .rateLimitExceeded)⟩ : Sigma VerifyCall.Reply) ∈ log) :
      Due log (.finalize submission)

/-- How a verification may end. -/
inductive Ended (log : VerifyLog) : V2VerifyOutcome → Prop
  | preflight {e : V2Error} (quiet : log.Quiet) (closed : ∀ s : Session P req cb, ¬ s.Opened log) :
      Ended log (.preflightFailure e)
  | replay {claim : V2ChallengeClaim} {result : V2ClaimResult} (quiet : log.Quiet)
      (closed : ∀ s : Session P req cb, ¬ s.Opened log)
      (answered : (⟨.claim claim, some (.ok result)⟩ : Sigma VerifyCall.Reply) ∈ log)
      (existing : result.disposition ≠ .created) : Ended log (.replay result.disposition claim)
  | evaluating (s : Session P req cb) (opened : s.Opened log) (uncommitted : ¬ log.Commits)
      {e : V2Error} : Ended log (.evaluating s.claim e)
  | committed (s : Session P req cb) {before : VerifyLog} {submission : Submission} {fresh : Bool}
      (last : log = before ++ [⟨.finalize submission, some (.ok fresh)⟩])
      (named : submission.claimId = s.claim.claimId) (opened : s.Opened before) (uncommitted : ¬ VerifyLog.Commits before) :
      Ended log (.commits s.claim submission.payload.receiptBody.1 submission.allowValidUntil)

/-- What a verification may ask: what is due, and an allow only on answers that were heard. -/
structure Asks (log : VerifyLog) (c : VerifyCall) : Prop where
  due : Due P req cb log c
  allowed : ∀ submission, c = .finalize submission → submission.Allows →
    ∃ s : Session P req cb, s.Allowed archive log submission.allowValidUntil

/-- A verification that asks and ends as it may. -/
abbrev Verifies {α : Type} (d : Verification α) (log : VerifyLog) (post : VerifyLog → α → Prop) :
    Prop :=
  d.Meets (Asks P archive req cb) (Ended P req cb) log post

/-! ## Longer histories -/

section Histories

variable {P archive req cb} {s : Session P req cb} {log log' : VerifyLog}
  {q : Sigma VerifyCall.Reply} {c : VerifyCall}

/-- A question that neither commits a result nor assesses the status. -/
def VerifyCall.IsAside : VerifyCall → Prop
  | .finalize _ => False
  | .status .. => False
  | _ => True

theorem VerifyLog.finalizations_append :
    (log ++ log').finalizations = log.finalizations ++ VerifyLog.finalizations log' :=
  List.filterMap_append

theorem VerifyLog.finalizations_aside (hq : q.1.IsAside) : (log ++ [q]).finalizations
    = log.finalizations := by
  obtain ⟨c, r⟩ := q
  rw [finalizations_append]
  cases c with
  | finalize submission => exact hq.elim
  | _ => exact List.append_nil _

/-- Every commit was asked for. -/
theorem VerifyLog.mem_finalizations {submission : Submission}
    {answer : VerifyCall.Reply (.finalize submission)}
    (h : (⟨.finalize submission, answer⟩ : Sigma VerifyCall.Reply) ∈ log) :
    submission ∈ log.finalizations := List.mem_filterMap.mpr ⟨_, h, rfl⟩

theorem VerifyLog.not_commits_of_nil (h : log.finalizations = []) : ¬ log.Commits := by
  rintro ⟨submission, fresh, hmem⟩
  have hasked := mem_finalizations hmem
  rw [h] at hasked
  cases hasked

/-- A session that has not committed a result. -/
structure Session.Live (s : Session P req cb) (log : VerifyLog) : Prop where
  opened : s.Opened log
  uncommitted : ¬ log.Commits

theorem Session.Live.snoc (h : s.Live log)
    (hq : ∀ submission fresh, q ≠ ⟨.finalize submission, some (.ok fresh)⟩) : s.Live (log ++ [q]) where
  opened := List.mem_append_left _ h.opened
  uncommitted := by
    rintro ⟨submission, fresh, hmem⟩
    obtain hmem | hmem := List.mem_append.mp hmem
    · exact h.uncommitted ⟨submission, fresh, hmem⟩
    · exact hq submission fresh (List.mem_singleton.mp hmem).symm

theorem VerifyCall.IsAside.ne_commit (hq : q.1.IsAside) (submission : Submission) (fresh : Bool) :
    q ≠ ⟨.finalize submission, some (.ok fresh)⟩ := by
  rintro rfl
  exact hq

/-- What is recorded of trust, and the options that it leaves. -/
inductive Session.TrustResolved (s : Session P req cb) (log : VerifyLog) :
    EvaluationProgress → V2LocalAuthorizationOptions → Prop
  | untouched : s.TrustResolved log ⟨initialV2EvaluationProgress, false⟩ req.options
  | resolved {root : DelegationCertV2} {resolution : Option V2TrustResolution}
      (last : s.bundle.delegations.getLast? = some root)
      (answered : ∀ r, resolution = some r → r.outcome = .trusted →
        (⟨.trust s.bundle.delegations, some (.ok r)⟩ : Sigma VerifyCall.Reply) ∈ log) :
      s.TrustResolved log
        ⟨{ initialV2EvaluationProgress with
          trustAssessment := (resolveTrust P root resolution req.options).1 }, true⟩
        (resolveTrust P root resolution req.options).2

/-- A call of the token that rests on what was answered. -/
def Session.Heard (s : Session P req cb) (log : VerifyLog) : TokenCall → Prop
  | .evaluate b o => b = s.bundle ∧ ∃ p, s.TrustResolved log p o
  | .status aggregate => ∃ answer, s.StatusHeard log answer ∧ ∀ checks, aggregate checks = .ok answer
  | .audience ms => log.MembershipsHeard ms
  | .rate _ store answer => store = cb.rate ∧ (answer = none
    ∨ (⟨.rate s.reservation, answer⟩ : Sigma VerifyCall.Reply) ∈ log)
  | .interrupt => True
  | .finalize .. => True

theorem Session.TrustResolved.mono {p : EvaluationProgress} {o : V2LocalAuthorizationOptions}
    (h : s.TrustResolved log p o) (hlog : log ⊆ log') : s.TrustResolved log' p o := by
  cases h with
  | untouched => exact .untouched
  | resolved hlast hanswered =>
    exact .resolved hlast fun r hr htrusted => hlog (hanswered r hr htrusted)

/-- What was heard stays heard. -/
theorem Session.Heard.mono {call : TokenCall} (h : s.Heard log call) (hlog : log ⊆ log') :
    s.Heard log' call := by
  cases call with
  | evaluate b o =>
    obtain ⟨hb, p, hp⟩ := h
    exact ⟨hb, p, hp.mono hlog⟩
  | status aggregate =>
    obtain ⟨answer, hheard, haggregate⟩ := h
    exact ⟨answer, hlog hheard, haggregate⟩
  | audience ms =>
    obtain hnil | ⟨deferred, receiverId, hmem⟩ := h
    · exact .inl hnil
    · exact .inr ⟨deferred, receiverId, hlog hmem⟩
  | rate cancelled store answer => exact ⟨h.1, h.2.imp_right fun hmem => hlog hmem⟩
  | interrupt => trivial
  | finalize rateView cancelled payload answer => trivial

theorem Session.Current.mono (h : s.Current log) (hlog : log ⊆ log') : s.Current log' := by
  obtain ⟨answer, p, hheard, hcurrent, hrecorded, hkept⟩ := h
  exact ⟨answer, p, hlog hheard, hcurrent, hlog hrecorded, hkept⟩

/-- A token of the session after calls that rest on what was answered. -/
def Session.Runs (s : Session P req cb) (archive : ZoneArchive) (log : VerifyLog)
    (t : V2EvaluationToken) : Prop :=
  ∃ calls, TokenRun P archive s.token calls t ∧ ∀ call ∈ calls, s.Heard log call

theorem Session.Runs.mono {t : V2EvaluationToken} (h : s.Runs archive log t) (hlog : log ⊆ log') :
    s.Runs archive log' t := by
  obtain ⟨calls, hrun, hheard⟩ := h
  exact ⟨calls, hrun, fun call hcall => (hheard call hcall).mono hlog⟩

/-- One more call. -/
theorem Session.Runs.snoc {t : V2EvaluationToken} (h : s.Runs archive log t) {c : TokenCall}
    (hc : s.Heard log c) : s.Runs archive log (c.perform P archive t) := by
  obtain ⟨calls, hrun, hheard⟩ := h
  refine ⟨calls ++ [c], hrun.snoc rfl, fun call hcall => ?_⟩
  obtain hcall | hcall := List.mem_append.mp hcall
  · exact hheard call hcall
  · rw [List.mem_singleton.mp hcall]
    exact hc

theorem Session.timed : s.token.Timed := timed_ofClaim s.sealing

theorem Session.Runs.inv {t : V2EvaluationToken} (h : s.Runs archive log t) :
    ∃ calls, TokenInv P archive s.token calls t ∧ ∀ call ∈ calls, s.Heard log call := by
  obtain ⟨calls, hrun, hheard⟩ := h
  exact ⟨calls, hrun.inv s.timed closed_ofClaim, hheard⟩

/-- The names of the session do not change. -/
theorem Session.Runs.names {t : V2EvaluationToken} (h : s.Runs archive log t) :
    t.claimId = s.claim.claimId ∧ t.ownerToken = s.ownerToken ∧ t.claim = s.claim
      ∧ t.claimedAt = s.claimedAt ∧ t.rateBatch = s.claim.rateBatch ∧ t.expected = s.expected := by
  obtain ⟨calls, hinv, -⟩ := h.inv
  rw [hinv.same]
  exact ⟨rfl, rfl, rfl, rfl, rfl, rfl⟩

end Histories

end RatifyProtocol.V2
