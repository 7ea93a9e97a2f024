import RatifyProtocol.V2.Authorization.VerifyRuns
set_option autoImplicit false

/-!
# Authorization: the stages of a verification

Each stage asks only what is due to it, and leaves to the next one what has been heard and
recorded.
-/

namespace RatifyProtocol.V2

open Foundation Dialogue

variable {P : Primitives} {archive : ZoneArchive} {req : V2VerifyRequest} {cb : V2VerifyCallbacks}
  {s : Session P req cb} {log log' : VerifyLog} {q : Sigma VerifyCall.Reply} {c : VerifyCall}

/-! ## Before a result is sealed -/

/-- Every status that was answered has been recorded. -/
def Session.StatusRecorded (s : Session P req cb) (log : VerifyLog) : Prop :=
  ∀ answer, s.StatusHeard log answer → ∃ p, s.Recorded log p
    ∧ p.statusAssessment = answer.assessment ∧ p.statusEvidence = answer.evidence

/-- A session whose evaluation goes on. -/
structure Session.Evaluating (s : Session P req cb) (log : VerifyLog) : Prop where
  opened : s.Opened log
  unfinalized : log.finalizations = []
  recorded : s.StatusRecorded log

theorem Session.StatusRecorded.snoc (h : s.StatusRecorded log)
    (hq : ∀ answer, q ≠ ⟨.status (statusChecks s.bundle) s.claimedAt, (answer, false)⟩) :
    s.StatusRecorded (log ++ [q]) := by
  intro answer hheard
  obtain hheard | hheard := List.mem_append.mp hheard
  · obtain ⟨p, hrecorded, hp⟩ := h answer hheard
    exact ⟨p, List.mem_append_left _ hrecorded, hp⟩
  · exact absurd (List.mem_singleton.mp hheard).symm (hq answer)

theorem VerifyCall.IsAside.ne_status (hq : q.1.IsAside) {checks : List V2CertificateStatusCheck}
    {now : Int} (answer : V2StatusAssessment) : q ≠ ⟨.status checks now, (answer, false)⟩ := by
  rintro rfl
  exact hq

theorem Session.Evaluating.snoc (h : s.Evaluating log) (hq : q.1.IsAside) :
    s.Evaluating (log ++ [q]) where
  opened := List.mem_append_left _ h.opened
  unfinalized := (VerifyLog.finalizations_aside hq).trans h.unfinalized
  recorded := h.recorded.snoc hq.ne_status

theorem Session.Evaluating.aside (h : s.Evaluating log) (c : VerifyCall) (r : c.Reply)
    (hc : c.IsAside) : s.Evaluating (log ++ [⟨c, r⟩]) := h.snoc hc

theorem Session.Evaluating.live (h : s.Evaluating log) : s.Live log where
  opened := h.opened
  uncommitted := VerifyLog.not_commits_of_nil h.unfinalized

/-! ## Questions -/

theorem asks_of_due (h : Due P req cb log c) (hc : c.IsAside) : Asks P archive req cb log c where
  due := h
  allowed := by
    rintro submission rfl
    exact hc.elim

section Questions

variable {α : Type} {claim : V2ChallengeClaim} {e : V2Error} {post : VerifyLog → Unit → Prop}

theorem verifies_isDone {f : Bool → Verification α} {post : VerifyLog → α → Prop}
    (h : ∀ done, Verifies P archive req cb (f done) (log ++ [⟨.done, done⟩]) post) :
    Verifies P archive req cb (isDone >>= f) log post :=
  meets_bind_iff.mpr ⟨asks_of_due .done trivial, h⟩

theorem Session.Live.aside (h : s.Live log) (c : VerifyCall) (r : c.Reply) (hc : c.IsAside) :
    s.Live (log ++ [⟨c, r⟩]) := h.snoc (VerifyCall.IsAside.ne_commit hc)

/-- A session that has not committed may stop. -/
theorem ended_evaluating (h : s.Live log) (e : V2Error) :
    Ended P req cb log (.evaluating s.claim e) := .evaluating s h.opened h.uncommitted

theorem verifies_stopUnlessDone {post : VerifyLog → α → Prop} (h : s.Live log) :
    Verifies P archive req cb (stopUnlessDone s.claim e) log post := by
  refine verifies_isDone fun done => ?_
  cases done with
  | true => exact ended_evaluating (h.aside .done true trivial) _
  | false => exact ended_evaluating (h.aside .done false trivial) _

theorem verifies_whileNotDone (h : s.Live log) (hpost : post (log ++ [⟨.done, false⟩]) ()) :
    Verifies P archive req cb (whileNotDone s.claim) log post := by
  refine verifies_isDone fun done => ?_
  cases done with
  | true => exact ended_evaluating (h.aside .done true trivial) _
  | false => exact hpost

/-- Progress goes on once the claim store has it. -/
theorem verifies_recordProgress {t : V2EvaluationToken} {p : V2EvaluationProgress}
    (h : s.Live log) (hrun : s.Runs archive log t)
    (hpost : post (log ++ [⟨.progress s.claim.claimId s.ownerToken p, some (.ok ())⟩]) ()) :
    Verifies P archive req cb (recordProgress s.claim t p) log post := by
  obtain ⟨hid, howner, -⟩ := hrun.names
  rw [recordProgress, hid, howner]
  cases hvalid : validateV2EvaluationProgressInner p with
  | error e => exact verifies_stopUnlessDone h
  | ok u =>
    refine ⟨asks_of_due (.progress s h.opened hvalid) trivial, fun answer => ?_⟩
    have hlive : s.Live (log ++ [⟨.progress s.claim.claimId s.ownerToken p, answer⟩]) :=
      h.aside _ _ trivial
    cases answer with
    | none => exact verifies_stopUnlessDone hlive
    | some result =>
      cases result with
      | error e => exact verifies_stopUnlessDone hlive
      | ok u => exact hpost

end Questions

/-! ## Trust -/

theorem Session.Runs.refl (s : Session P req cb) (archive : ZoneArchive) (log : VerifyLog) :
    s.Runs archive log s.token := ⟨[], .nil, fun call hcall => by cases hcall⟩

theorem verifies_callTrust (h : s.Evaluating log)
    (hstarted : s.Recorded log { initialV2EvaluationProgress with trustAssessment := "unavailable" }) :
    Verifies P archive req cb (callTrust cb s.claim s.bundle.delegations) log fun log' resolution =>
      s.Evaluating log' ∧ ∀ r, resolution = some r → r.outcome = .trusted →
        (⟨.trust s.bundle.delegations, some (.ok r)⟩ : Sigma VerifyCall.Reply) ∈ log' := by
  rw [callTrust]
  cases htrust : cb.trust with
  | false =>
    refine ⟨h, fun r hr htrusted => ?_⟩
    obtain rfl := Option.some.inj hr
    cases htrusted
  | true =>
    refine ⟨asks_of_due (.trust s h.opened hstarted) trivial, fun answer => ?_⟩
    have hnext := h.aside (.trust s.bundle.delegations) answer trivial
    have hfailed : Verifies P archive req cb (whileNotDone s.claim >>= fun _ => .pass none)
        (log ++ [⟨.trust s.bundle.delegations, answer⟩]) fun log' resolution =>
          s.Evaluating log' ∧ ∀ r : V2TrustResolution, resolution = some r → r.outcome = .trusted →
            (⟨.trust s.bundle.delegations, some (.ok r)⟩ : Sigma VerifyCall.Reply) ∈ log' :=
      meets_bind_iff.mpr (verifies_whileNotDone hnext.live
        ⟨hnext.aside .done false trivial, fun r hr => by cases hr⟩)
    cases answer with
    | none => exact hfailed
    | some result =>
      cases result with
      | error e => exact hfailed
      | ok resolution =>
        refine ⟨hnext, fun r hr _ => ?_⟩
        obtain rfl := Option.some.inj hr
        exact List.mem_concat_self

/-- Trust is asked for once its start is recorded. -/
theorem verifies_verifyTrust (h : s.Evaluating log) :
    Verifies P archive req cb (verifyTrust P req cb s.bundle s.claim s.token) log fun log' r =>
      s.Evaluating log' ∧ s.TrustResolved log' r.1 r.2 := by
  rw [verifyTrust]
  split
  · split
    · exact ⟨h, .untouched⟩
    · rename_i root hroot
      refine meets_bind_iff.mpr (verifies_recordProgress h.live (.refl s archive log) ?_)
      have hrecorded := h.aside (.progress s.claim.claimId s.ownerToken
        { initialV2EvaluationProgress with trustAssessment := "unavailable" }) (some (.ok ())) trivial
      refine (verifies_callTrust hrecorded List.mem_concat_self).andThen fun log' resolution hdone => ?_
      exact ⟨hdone.1, .resolved hroot hdone.2⟩
  · exact ⟨h, .untouched⟩

/-- Only a provider that has answered the root of the chain makes it trusted. -/
theorem resolveTrust_of_trustedRoot {root : DelegationCertV2} {resolution : Option V2TrustResolution}
    (hid : validV2Id root.issuerId = true)
    (h : TrustedRoot (resolveTrust P root resolution req.options).2 root) :
    (resolveTrust P root resolution req.options).1 = "trusted" ∧ ∃ r, resolution = some r
      ∧ r.outcome = .trusted ∧ keyIdV2 P r.rootKey = .ok root.issuerId
      ∧ r.rootKey = root.issuerPubKey := by
  have hunconfigured : ¬ TrustedRoot req.options root := fun h => by cases h.configured
  cases resolution with
  | none => exact absurd h hunconfigured
  | some r =>
    rw [resolveTrust] at h ⊢
    cases houtcome : r.outcome with
    | unavailable =>
      rw [houtcome] at h
      exact absurd h hunconfigured
    | ambiguous =>
      rw [houtcome] at h
      exact absurd h hunconfigured
    | untrusted =>
      rw [houtcome] at h
      rw [← h.id] at hid
      exact absurd hid (show ¬ validV2Id "" = true by decide)
    | trusted =>
      rw [houtcome] at h
      simp only [V2TrustResolution.root] at h ⊢
      cases hkey : keyIdV2 P r.rootKey with
      | error e =>
        rw [hkey] at h
        exact absurd h hunconfigured
      | ok rootId =>
        rw [hkey] at h
        dsimp only at h ⊢
        by_cases hsame : (rootId == root.issuerId && equalKeys r.rootKey root.issuerPubKey) = true
        · simp only [hsame, if_true, true_and]
          rw [Bool.and_eq_true, beq_iff_eq, equalKeys_iff] at hsame
          exact ⟨r, rfl, houtcome, hsame.1 ▸ hkey, hsame.2⟩
        · simp only [hsame] at h
          exact absurd h hunconfigured

theorem Session.TrustResolved.trusted {p : EvaluationProgress} {o : V2LocalAuthorizationOptions}
    (h : s.TrustResolved log p o) (hexamined : Examined P s.bundle o s.token) :
    p.trustCompleted = true ∧ p.persisted.trustAssessment = "trusted"
      ∧ ∃ root resolution, s.Trusted log root resolution
        ∧ o = (resolveTrust P root (some resolution) req.options).2 := by
  obtain ⟨root', hlast', htrusted⟩ := hexamined.chain.root
  cases h with
  | untouched => cases htrusted.configured
  | resolved hlast hanswered =>
    obtain rfl := Option.some.inj (hlast.symm.trans hlast')
    have hvalid := (hexamined.sealedProof.chain.certs _ (List.mem_of_getLast? hlast)).issuer.1
    obtain ⟨hassessment, r, rfl, houtcome, hkeyId, hkey⟩ := resolveTrust_of_trustedRoot hvalid htrusted
    exact ⟨rfl, hassessment, _, r, ⟨hlast, hanswered r rfl houtcome, houtcome, hkeyId, hkey⟩, rfl⟩

/-! ## The local evaluation -/

/-- An evaluation whose token has heard only what was answered. -/
structure Session.Evaluated (s : Session P req cb) (archive : ZoneArchive) (log : VerifyLog)
    (e : Evaluation) : Prop where
  evaluating : s.Evaluating log
  runs : s.Runs archive log e.token

/-- An evaluation that may ask for the status of its chain. -/
structure Session.StatusReady (s : Session P req cb) (archive : ZoneArchive) (log : VerifyLog)
    (e : Evaluation) : Prop extends s.Evaluated archive log e where
  ready : e.assessment.status = "pending_external_checks" →
    s.Recorded log e.progress.persisted ∧ e.progress.persisted.trustAssessment = "trusted"
      ∧ e.progress.persisted.statusAssessment = "unavailable"
      ∧ e.assessment.statusChecks = statusChecks s.bundle

/-- Only an examined proof is left pending. -/
theorem examined_of_evaluate {o : V2LocalAuthorizationOptions}
    (h : (s.token.evaluate P archive s.bundle o).1.status = "pending_external_checks") :
    Examined P s.bundle o s.token ∧ (s.token.evaluate P archive s.bundle o).1
      = (pendingV2LocalAssessment archive s.bundle o s.token).claimed s.token := by
  rw [V2EvaluationToken.evaluate] at h ⊢
  split at h
  · exact absurd h (show ¬ "authorization_unverified" = "pending_external_checks" by decide)
  split at h
  · exact absurd h (show ¬ "evaluation_in_progress" = "pending_external_checks" by decide)
  rename_i hbound hused
  rw [if_neg hbound, if_neg hused]
  obtain ⟨hexamined, heq⟩ | ⟨-, decision, hterminal, hdecision⟩ :=
    evaluateLocalStarted_cases s.timed P archive s.bundle o
  · exact ⟨hexamined, by rw [heq]⟩
  · exact absurd h (refusing_status ⟨decision, hterminal, hdecision⟩).1

theorem afterLocal_trustAssessment (p : V2EvaluationProgress) (a : V2LocalAuthorizationAssessment) :
    (EvaluationProgress.afterLocal p a).trustAssessment = p.trustAssessment := by
  rw [EvaluationProgress.afterLocal]
  split_ifs <;> (try split) <;> rfl

theorem afterLocal_statusAssessment (p : V2EvaluationProgress) {a : V2LocalAuthorizationAssessment}
    (h : a.status = "pending_external_checks") :
    (EvaluationProgress.afterLocal p a).statusAssessment = "unavailable" := by
  rw [EvaluationProgress.afterLocal]
  simp only [h, if_true]

theorem verifies_verifyLocal {p : EvaluationProgress} {o : V2LocalAuthorizationOptions}
    (h : s.Evaluating log) (htrust : s.TrustResolved log p o) :
    Verifies P archive req cb (verifyLocal P archive s.bundle s.claim s.token p o) log
      (s.StatusReady archive) := by
  have hruns : s.Runs archive log (s.token.evaluate P archive s.bundle o).2 :=
    (Session.Runs.refl s archive log).snoc (c := .evaluate s.bundle o) ⟨rfl, p, htrust⟩
  have hexamined := @examined_of_evaluate P archive req cb s o
  rw [verifyLocal]
  generalize s.token.evaluate P archive s.bundle o = r at hruns hexamined ⊢
  obtain ⟨a, t⟩ := r
  dsimp only at hruns hexamined ⊢
  split
  · rename_i hcompleted
    have hrecorded := h.aside (.progress s.claim.claimId s.ownerToken
      (EvaluationProgress.afterLocal p.persisted a)) (some (.ok ())) trivial
    refine meets_bind_iff.mpr (verifies_recordProgress h.live hruns ?_)
    refine ⟨⟨hrecorded, hruns.mono (List.subset_append_left _ _)⟩, fun hpending => ?_⟩
    obtain ⟨hproof, heq⟩ := hexamined hpending
    refine ⟨List.mem_concat_self, ?_, afterLocal_statusAssessment _ hpending, ?_⟩
    · exact (afterLocal_trustAssessment _ _).trans (htrust.trusted hproof).2.1
    · rw [heq]
      rfl
  · rename_i hcompleted
    refine ⟨⟨h, hruns⟩, fun hpending => ?_⟩
    exact absurd (htrust.trusted (hexamined hpending).1).1 hcompleted

/-! ## Status -/

variable {e : Evaluation}

theorem Session.Runs.interruptAfter {stage : String}
    {r : V2Result V2LocalAuthorizationAssessment × V2EvaluationToken} (h : s.Runs archive log r.2) :
    s.Runs archive log (interruptAfter stage r).2 := by
  rw [V2.interruptAfter]
  split
  · exact h
  · exact h.snoc (c := .interrupt) trivial

/-- A stage that has failed leaves nothing pending. -/
theorem interruptAfter_pending {stage : String}
    {r : V2Result V2LocalAuthorizationAssessment × V2EvaluationToken}
    (h : (interruptAfter stage r).1.status = "pending_external_checks") :
    r.1 = .ok (interruptAfter stage r).1 := by
  rw [interruptAfter] at h ⊢
  split at h
  · rename_i a ha
    rw [ha]
  · exact absurd h (show ¬ "authorization_unverified" = "pending_external_checks" by decide)

theorem afterStatus_eq_ok {t : V2EvaluationToken} {a' : V2LocalAuthorizationAssessment}
    {aggregate : List V2CertificateStatusCheck → V2Result V2StatusAssessment}
    (h : (t.afterStatus aggregate).1 = .ok a') : ∃ a aggregated, t.pending = some a
      ∧ aggregate a.statusChecks = .ok aggregated ∧ resolveStatus a aggregated = .ok a' := by
  rw [V2EvaluationToken.afterStatus] at h
  split at h
  · cases h
  rename_i a ha
  split at h
  · cases h
  split at h
  · cases h
  rename_i a'' hok
  obtain rfl := Except.ok.inj h
  obtain ⟨aggregated, haggregate, hresolve⟩ := bind_eq_ok_iff.mp hok
  exact ⟨a, aggregated, ha, haggregate, hresolve⟩

/-- The status stage goes on only from a current status. -/
theorem current_of_afterStatus {t : V2EvaluationToken} {stage : String} {answer : V2StatusAssessment}
    (hrun : s.Runs archive log t) (h : (interruptAfter stage (t.afterStatus fun _ => .ok answer)).1.status
      = "pending_external_checks") : answer.assessment = "current" := by
  obtain ⟨a, aggregated, ha, haggregate, hresolve⟩ := afterStatus_eq_ok (interruptAfter_pending h)
  obtain rfl := Except.ok.inj haggregate
  obtain ⟨calls, hinv, -⟩ := hrun.inv
  obtain ⟨-, -, _, _, -, -, -, -, hfailure⟩ := hinv.ready ha
  obtain hrefuses | ⟨hcurrent, -⟩ := resolveStatus_cases hresolve hfailure
  · exact absurd h (refusing_status hrefuses).1
  · exact hcurrent

/-- An evaluation that goes on with a current status. -/
structure Session.StatusDone (s : Session P req cb) (archive : ZoneArchive) (log : VerifyLog)
    (e : Evaluation) : Prop extends s.Evaluated archive log e where
  current : e.assessment.status = "pending_external_checks" → s.Current log

theorem verifies_verifyStatus (h : s.StatusReady archive log e) :
    Verifies P archive req cb (verifyStatus s.claim e) log (s.StatusDone archive) := by
  rw [verifyStatus]
  split
  · rename_i hpending
    obtain ⟨hrecorded, htrusted, hstarted, hchecks⟩ := h.ready hpending
    obtain ⟨-, -, -, hclaimedAt, -⟩ := h.runs.names
    rw [hchecks, hclaimedAt]
    have hdue : Due P req cb log (.status (statusChecks s.bundle) s.claimedAt) :=
      .status s h.evaluating.opened hrecorded htrusted hstarted
    refine meets_bind_iff.mpr ⟨⟨hdue, fun submission hne => by cases hne⟩, fun answer => ?_⟩
    obtain ⟨answer, cancelled⟩ := answer
    have hlive : s.Live (log ++ [⟨.status (statusChecks s.bundle) s.claimedAt, (answer, cancelled)⟩]) :=
      h.evaluating.live.snoc fun submission fresh hne => by cases hne
    cases cancelled with
    | true => exact ended_evaluating hlive _
    | false =>
      have hruns := h.runs.mono (List.subset_append_left log
        [⟨.status (statusChecks s.bundle) s.claimedAt, (answer, false)⟩])
      refine meets_bind_iff.mpr (verifies_recordProgress hlive hruns ?_)
      set persisted := { e.progress.persisted with
        statusAssessment := answer.assessment, statusEvidence := answer.evidence } with hpersisted
      set log' := log ++ [⟨.status (statusChecks s.bundle) s.claimedAt, (answer, false)⟩] with hlog'
      have hmem : s.Recorded (log' ++ [⟨.progress s.claim.claimId s.ownerToken persisted,
        some (.ok ())⟩]) persisted := List.mem_concat_self
      have hheard : s.StatusHeard (log' ++ [⟨.progress s.claim.claimId s.ownerToken persisted,
        some (.ok ())⟩]) answer := List.mem_append_left _ List.mem_concat_self
      have hruns' := (hruns.mono (List.subset_append_left log' [⟨.progress s.claim.claimId s.ownerToken
        persisted, some (.ok ())⟩])).snoc (c := .status fun _ => .ok answer)
          ⟨answer, hheard, fun checks => rfl⟩
      refine ⟨⟨⟨?_, ?_, ?_⟩, hruns'.interruptAfter⟩, fun hgoes => ?_⟩
      · exact List.mem_append_left _ (List.mem_append_left _ h.evaluating.opened)
      · rw [VerifyLog.finalizations_append, VerifyLog.finalizations_append, h.evaluating.unfinalized]
        rfl
      · intro other hother
        obtain hother | hother := List.mem_append.mp hother
        · obtain hother | hother := List.mem_append.mp hother
          · obtain ⟨p, hp, hkept⟩ := h.evaluating.recorded other hother
            exact ⟨p, List.mem_append_left _ (List.mem_append_left _ hp), hkept⟩
          · cases List.mem_singleton.mp hother
            exact ⟨persisted, hmem, rfl, rfl⟩
        · cases List.mem_singleton.mp hother
      · have hcurrent := current_of_afterStatus hruns hgoes
        exact ⟨answer, persisted, hheard, hcurrent, hmem, htrusted, hcurrent, rfl⟩
  · rename_i hdone
    exact ⟨h.toEvaluated, fun hpending => absurd hpending hdone⟩

/-! ## Audience -/

theorem verifies_callAudience {deferred : List V2DeferredConstraint} {receiverId : String}
    (h : s.Evaluating log) (hcurrent : s.Current log) (hdeferred : ∀ d ∈ deferred, d.isAudience = true) :
    Verifies P archive req cb (callAudience cb s.claim deferred receiverId) log fun log' ms =>
      s.Evaluating log' ∧ log ⊆ log' ∧ log'.MembershipsHeard ms := by
  rw [callAudience]
  split
  · refine ⟨asks_of_due (.audience s h.opened hcurrent hdeferred) trivial, fun answer => ?_⟩
    have hnext := h.aside (.audience deferred receiverId) answer trivial
    have hkept := List.subset_append_left log [⟨.audience deferred receiverId, answer⟩]
    have hfailed : Verifies P archive req cb (whileNotDone s.claim >>= fun _ => .pass [])
        (log ++ [⟨.audience deferred receiverId, answer⟩]) fun log' ms =>
          s.Evaluating log' ∧ log ⊆ log' ∧ log'.MembershipsHeard ms :=
      meets_bind_iff.mpr (verifies_whileNotDone hnext.live ⟨hnext.aside .done false trivial,
        List.Subset.trans hkept (List.subset_append_left _ _), .inl rfl⟩)
    cases answer with
    | none => exact hfailed
    | some result =>
      cases result with
      | error e => exact hfailed
      | ok ms => exact ⟨hnext, hkept, .inr ⟨deferred, receiverId, List.mem_concat_self⟩⟩
  · exact ⟨h, List.Subset.refl log, .inl rfl⟩

/-- The audience is asked for only with a current status. -/
theorem verifies_verifyAudience (h : s.StatusDone archive log e) :
    Verifies P archive req cb (verifyAudience req cb s.claim e) log (s.StatusDone archive) := by
  rw [verifyAudience]
  split
  · rename_i hgoes
    have hcurrent := h.current hgoes.1
    have hfilter : ∀ d ∈ e.assessment.deferred.filter V2DeferredConstraint.isAudience,
        d.isAudience = true := fun d hd => (List.mem_filter.mp hd).2
    refine (verifies_callAudience h.evaluating hcurrent hfilter).andThen fun log' ms hdone => ?_
    obtain ⟨hevaluating, hkept, hheard⟩ := hdone
    have hruns := (h.runs.mono hkept).snoc (c := .audience ms) hheard
    exact ⟨⟨hevaluating, hruns.interruptAfter⟩, fun _ => hcurrent.mono hkept⟩
  · exact h

/-! ## Rate -/

theorem binds_of_checkRate {t : V2EvaluationToken} {a : V2LocalAuthorizationAssessment}
    (h : t.checkRate = .ok a) : t.binds a = true := by
  rw [V2EvaluationToken.checkRate] at h
  split at h
  · cases h
  split at h
  · cases h
  rename_i hbinds
  split at h
  · cases h
  split at h
  · cases h
  · obtain rfl := Except.ok.inj h
    simp only [Bool.or_eq_true, Bool.not_eq_true', not_or, Bool.not_eq_false] at hbinds
    exact hbinds.1

/-- The rate stage asks at most once, and for the batch of its claim. -/
theorem afterRate_shape (t : V2EvaluationToken) (cancelled : Bool) (store : RateStore) :
    (∃ x, t.afterRate cancelled store = .ret x) ∨ ∃ (a : V2LocalAuthorizationAssessment)
      (g : Option (V2StoreResult Unit) → V2Result V2LocalAuthorizationAssessment × V2EvaluationToken),
      t.binds a = true ∧ t.afterRate cancelled store = .call ⟨t.claimId, t.ownerToken, a.bundleHash, t.rateBatch⟩
        fun answer => .ret (g answer) := by
  rw [V2EvaluationToken.afterRate]
  split
  · exact .inl ⟨_, rfl⟩
  split
  · exact .inl ⟨_, rfl⟩
  · rename_i a hcheck
    cases store with
    | absent => exact .inl ⟨_, rfl⟩
    | atFinalization => exact .inl ⟨_, rfl⟩
    | reserving => exact .inr ⟨a, _, binds_of_checkRate hcheck, rfl⟩

theorem Session.Runs.reservation {t : V2EvaluationToken} {a : V2LocalAuthorizationAssessment}
    (h : s.Runs archive log t) (hbinds : t.binds a = true) :
    (⟨t.claimId, t.ownerToken, a.bundleHash, t.rateBatch⟩ : Reservation) = s.reservation := by
  obtain ⟨hid, howner, -, -, hbatch, hexpected⟩ := h.names
  rw [V2EvaluationToken.binds, Bool.and_eq_true, beq_iff_eq] at hbinds
  rw [hid, howner, hbatch, hbinds.1, hexpected, ← (sealChallengeClaim_eq_ok s.sealing).fields.1]
  rfl

/-- The rate store is asked only with a current status. -/
theorem verifies_askRate {t : V2EvaluationToken} (h : s.Evaluating log) (hrun : s.Runs archive log t)
    (hcurrent : s.Current log) (cancelled : Bool) :
    Verifies P archive req cb (askRate (t.afterRate cancelled cb.rate)) log fun log' r =>
      s.Evaluating log' ∧ s.Runs archive log' r.2 := by
  have hperform (answer : Option (V2StoreResult Unit)) :
      TokenCall.perform P archive t (.rate cancelled cb.rate answer)
        = ((t.afterRate cancelled cb.rate).answered answer).2 := rfl
  obtain ⟨x, hx⟩ | ⟨a, g, hbinds, hg⟩ := afterRate_shape t cancelled cb.rate
  · rw [hx]
    refine ⟨h, ?_⟩
    have hnext := hrun.snoc (c := .rate cancelled cb.rate none) ⟨rfl, .inl rfl⟩
    rw [hperform, hx] at hnext
    exact hnext
  · rw [hg, hrun.reservation hbinds]
    refine ⟨asks_of_due (.rate s h.opened hcurrent) trivial, fun answer => ?_⟩
    refine ⟨h.aside (.rate s.reservation) answer trivial, ?_⟩
    have hnext := (hrun.mono (List.subset_append_left log [⟨.rate s.reservation, answer⟩])).snoc
      (c := .rate cancelled cb.rate answer) ⟨rfl, .inr List.mem_concat_self⟩
    rw [hperform, hg] at hnext
    exact hnext

theorem verifies_verifyRate (h : s.StatusDone archive log e) :
    Verifies P archive req cb (verifyRate cb s.claim e) log (s.Evaluated archive) := by
  rw [verifyRate]
  split
  · rename_i hpending
    have hcurrent := h.current hpending
    refine meets_bind_iff.mpr (verifies_whileNotDone h.evaluating.live ?_)
    refine verifies_isDone fun cancelled => ?_
    have hevaluating := (h.evaluating.aside .done false trivial).aside .done cancelled trivial
    have hkept : log ⊆ log ++ [⟨.done, false⟩] ++ [⟨.done, cancelled⟩] :=
      List.Subset.trans (List.subset_append_left _ _) (List.subset_append_left _ _)
    refine (verifies_askRate hevaluating (h.runs.mono hkept) (hcurrent.mono hkept)
      cancelled).andThen fun log'' r hasked => ?_
    obtain ⟨hevaluating, hruns⟩ := hasked
    split
    · exact ⟨hevaluating, hruns⟩
    · refine meets_bind_iff.mpr (verifies_whileNotDone hevaluating.live ?_)
      exact ⟨hevaluating.aside .done false trivial,
        (hruns.mono (List.subset_append_left _ _)).snoc (c := .interrupt) trivial⟩
  · exact h.toEvaluated

end RatifyProtocol.V2
