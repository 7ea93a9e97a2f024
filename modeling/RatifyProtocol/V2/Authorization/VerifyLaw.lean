import RatifyProtocol.V2.Authorization.VerifyStages
set_option autoImplicit false

/-!
# Authorization: the law of a verification

Whatever the claim store, the providers and the context answer: a verification asks in order,
ends as what it was answered allows, and submits an allow only on answers that it has heard.
-/

namespace RatifyProtocol.V2

open Foundation Dialogue

variable {P : Primitives} {archive : ZoneArchive} {req : V2VerifyRequest} {cb : V2VerifyCallbacks}
  {s : Session P req cb} {log log' : VerifyLog} {a : V2LocalAuthorizationAssessment}
  {t : V2EvaluationToken} {p : V2EvaluationProgress} {decision : String} {payload : Payload}

/-! ## Allows -/

/-- What a token has granted from the answers of a session. -/
theorem Session.allowed_of_granted {calls : List TokenCall} {b : ProofBundleV2}
    {o : V2LocalAuthorizationOptions} {horizon : Int} (hopened : s.Opened log)
    (hgranted : Granted P archive s.token calls b o horizon)
    (hheard : ∀ call ∈ calls, s.Heard log call) (hpos : 0 < horizon) :
    s.Allowed archive log horizon := by
  obtain ⟨rfl, p, hresolved⟩ := hheard _ hgranted.evaluated
  obtain ⟨-, -, root, resolution, htrusted, ho⟩ := hresolved.trusted hgranted.examined
  obtain ⟨aggregated, memberships, hstatus, haudience, hglb⟩ := hgranted.settled
  obtain ⟨aggregate, hmem, hanswer⟩ := hstatus.answered
  obtain ⟨answer, hanswered, haggregate⟩ := hheard _ hmem
  obtain rfl : answer = aggregated := Except.ok.inj ((haggregate _).symm.trans hanswer)
  refine ⟨root, resolution, o, answer, memberships, ?_⟩
  refine { opened := hopened, trusted := htrusted, options := ho, examined := hgranted.examined
           cleared := hgranted.cleared, current := ⟨hanswered, hstatus.current⟩
           audience := ?_, rate := ?_, horizon := ⟨hpos, hglb⟩ }
  · cases memberships with
    | none => exact haudience
    | some ms =>
      obtain ⟨result, hpassed⟩ := haudience
      exact ⟨hheard _ hpassed.answered, result, hpassed.evaluated, hpassed.passed⟩
  · refine hgranted.rate.imp_left fun hadmitted => ?_
    obtain ⟨cancelled, store, answer', hcall, hstore⟩ := hadmitted.answered
    obtain ⟨rfl, hheard'⟩ := hheard _ hcall
    obtain hfinal | ⟨hreserving, rfl⟩ := hstore
    · exact .inl hfinal
    · exact .inr ⟨hreserving, hheard'.resolve_left (by simp)⟩

/-! ## Sealed results -/

theorem heldBytes_eq {b : Bytes} (h : b.length ≤ isizeMax) : (heldBytes b).1 = b :=
  List.take_of_length_le h

/-- A sealed result states the decision of its assessment. -/
theorem buildV2TerminalResult_eq_ok {b : ProofBundleV2} {claim : V2ChallengeClaim} {verifiedAt : Int}
    (h : buildV2TerminalResult b a p claim verifiedAt = .ok (decision, payload)) :
    terminalDecisionForV2Evaluation a.status a.reason = some decision
      ∧ bodyOutcome payload.receiptBody.1 = some (decision, a.reason, a.status) := by
  rw [buildV2TerminalResult] at h
  split at h
  · cases h
  rename_i decision' hterminal
  obtain ⟨body, hbody, h⟩ := bind_eq_ok_iff.mp h
  obtain ⟨terminal, -, h⟩ := bind_eq_ok_iff.mp h
  obtain ⟨rfl, rfl⟩ := Prod.mk.inj (Except.ok.inj h)
  have hbody := withContext_eq_ok_iff.mp hbody
  have hheld : body.length ≤ isizeMax := by
    obtain ⟨-, ⟨wire, hwire, hfits⟩, hcanonical⟩ := verificationReceiptV2Body_eq_ok_iff.mp hbody
    exact (length_body_le hcanonical hwire).trans (hfits.trans (by decide))
  refine ⟨hterminal, ?_⟩
  dsimp only
  rw [heldBytes_eq hheld, bodyOutcome_body hbody]
  rfl

/-! ## Finalization -/

/-- A session whose result may be submitted, with the attempts that are left. -/
structure Session.Finalizing (s : Session P req cb) (archive : ZoneArchive) (log : VerifyLog)
    (attempts : Nat) (a : V2LocalAuthorizationAssessment) (t : V2EvaluationToken) : Prop where
  live : s.Live log
  recorded : s.StatusRecorded log
  runs : s.Runs archive log t
  attempt : log.finalizations = [] ∧ attempts ≤ 2
    ∨ attempts ≤ 1 ∧ a.status = "constraint_denied" ∧ a.reason = "constraint_denied"
      ∧ ∃ first, log.finalizations = [first]
        ∧ (⟨.finalize first, some (.error .rateLimitExceeded)⟩ : Sigma VerifyCall.Reply) ∈ log

theorem Session.Finalizing.aside {attempts : Nat} (h : s.Finalizing archive log attempts a t)
    (c : VerifyCall) (r : c.Reply) (hc : c.IsAside) :
    s.Finalizing archive (log ++ [⟨c, r⟩]) attempts a t where
  live := h.live.aside c r hc
  recorded := h.recorded.snoc (VerifyCall.IsAside.ne_status hc)
  runs := h.runs.mono (List.subset_append_left _ _)
  attempt := by
    rw [VerifyLog.finalizations_aside hc]
    refine h.attempt.imp_right ?_
    rintro ⟨hle, hstatus, hreason, first, hfirst, hmem⟩
    exact ⟨hle, hstatus, hreason, first, hfirst, List.mem_append_left _ hmem⟩

section Submission

variable {attempts : Nat} {b : ProofBundleV2} {claim : V2ChallengeClaim} {verifiedAt : Int}
  {rateView : Bool} {d : String}

/-- A token admits a sealed result only with the decision that it states. -/
theorem decision_of_admitted
    (hbuilt : buildV2TerminalResult b a p claim verifiedAt = .ok (decision, payload))
    (h : Admitted P rateView t.toTokenState payload d) : d = decision := by
  obtain ⟨identity, hbody⟩ := bodyOutcome_of_matches h.matched
  exact (Prod.mk.inj (Option.some.inj (hbody.symm.trans (buildV2TerminalResult_eq_ok hbuilt).2))).1

/-- What is submitted is due, and rests on what was heard. -/
theorem Session.Finalizing.asks (h : s.Finalizing archive log (attempts + 1) a t)
    (hbuilt : buildV2TerminalResult b a p claim verifiedAt = .ok (decision, payload))
    (hadmitted : Admitted P rateView t.toTokenState payload decision) :
    Asks P archive req cb log
      (.finalize ⟨t.claimId, t.ownerToken, payload, t.m.allowValidUntil⟩) := by
  obtain ⟨hid, howner, hclaim, -⟩ := h.runs.names
  obtain ⟨hterminal, hbody⟩ := buildV2TerminalResult_eq_ok hbuilt
  have hallows : (⟨t.claimId, t.ownerToken, payload, t.m.allowValidUntil⟩ : Submission).Allows
      ↔ decision = "allow" := by
    constructor
    · rintro ⟨reason, identity, hallow⟩
      exact (Prod.mk.inj (Option.some.inj (hbody.symm.trans hallow))).1
    · intro hallow
      rw [hallow] at hbody
      exact ⟨_, _, hbody⟩
  have hhorizon := hadmitted.horizon
  refine ⟨.finalize s h.live.opened ⟨hid, howner⟩ (hclaim ▸ hadmitted.sealed) h.recorded ?_ ?_, ?_⟩
  · rw [hallows]
    split at hhorizon
    · rename_i hallow
      exact iff_of_true (show t.m.allowValidUntil ≠ 0 by omega) hallow
    · rename_i hallow
      exact iff_of_false (fun hne => hne hhorizon) hallow
  · refine h.attempt.imp (fun hnone => hnone.1) ?_
    rintro ⟨-, hstatus, hreason, hfirst⟩
    rw [hstatus, hreason] at hterminal
    obtain rfl := Option.some.inj hterminal
    rw [hstatus, hreason] at hbody
    exact ⟨hbody, hhorizon, hfirst⟩
  · intro submission heq hallow
    obtain rfl := VerifyCall.finalize.inj heq
    obtain rfl := hallows.mp hallow
    obtain ⟨calls, hinv, hheard⟩ := h.runs.inv
    obtain ⟨b', o, hgranted⟩ := hinv.granted (authorized_of_allow hadmitted.terminal)
    exact ⟨s, s.allowed_of_granted h.live.opened hgranted hheard hhorizon⟩

theorem checkFinalization_eq_error {cancelled : Bool} {token : TokenState} {f : FinalizeFailure}
    (h : checkFinalization P rateView cancelled token payload = .error f) : ∃ e, f = .own e := by
  unfold checkFinalization own at h
  repeat' split at h
  all_goals first
    | exact ⟨_, (Except.error.inj h).symm⟩
    | cases h

/-- What a call of the claim store leaves of a finalization. -/
structure Session.Finalized (s : Session P req cb) (archive : ZoneArchive) (attempts : Nat)
    (a : V2LocalAuthorizationAssessment) (t : V2EvaluationToken) (decision : String)
    (payload : Payload) (log : VerifyLog) (r : Except FinalizeFailure Bool × TokenState) : Prop where
  committed : ∀ fresh, r.1 = .ok fresh → Ended P req cb log
    (.commits s.claim payload.receiptBody.1 (if decision = "allow" then r.2.m.allowValidUntil else 0))
  failed : ∀ f, r.1 = .error f → s.Live log
  -- Only a store that has found no capacity leaves a second attempt.
  retried : r.1 = .error (.store .rateLimitExceeded) → 0 < attempts →
    s.Finalizing archive log attempts a.rateLimited { t with toTokenState := r.2 }

/-- An error that is not the claim store's own ends the finalization. -/
theorem Session.Live.refused (h : s.Live log) (e : V2Error) (token : TokenState) :
    s.Finalized archive attempts a t decision payload log (.error (.own e), token) where
  committed := fun fresh hok => by cases hok
  failed := fun f _ => h
  retried := fun hlimit => by cases hlimit

theorem Session.Finalizing.answered (h : s.Finalizing archive log (attempts + 1) a t)
    (hadmitted : Admitted P rateView t.toTokenState payload decision) (cancelled : Bool)
    (answer : V2StoreResult Bool)
    (hinner : (finalizeClaimProofBundleV2Inner P rateView cancelled t.toTokenState payload).answered
      answer = (answer.mapError .store, { t.toTokenState with
        m := (t.m.start (v2FinalizationPayloadDigest P payload)).settle rateView decision answer })) :
    s.Finalized archive attempts a t decision payload
      (log ++ [⟨.finalize ⟨t.claimId, t.ownerToken, payload, t.m.allowValidUntil⟩, some answer⟩])
      (answer.mapError .store, { t.toTokenState with
        m := (t.m.start (v2FinalizationPayloadDigest P payload)).settle rateView decision answer }) := by
  have hhorizon := hadmitted.horizon
  cases answer with
  | ok fresh =>
    refine ⟨fun fresh' _ => ?_, fun f hf => (by cases hf), fun hlimit => (by cases hlimit)⟩
    have hkept : (if decision = "allow" then t.m.allowValidUntil else 0) = t.m.allowValidUntil := by
      split
      · rfl
      · rename_i hallow
        rw [if_neg hallow] at hhorizon
        exact hhorizon.symm
    show Ended P req cb _ (.commits s.claim payload.receiptBody.1
      (if decision = "allow" then t.m.allowValidUntil else 0))
    rw [hkept]
    exact .committed s rfl h.runs.names.1 h.live.opened h.live.uncommitted
  | error e =>
    have hlive := h.live.snoc (q := ⟨.finalize ⟨t.claimId, t.ownerToken, payload, t.m.allowValidUntil⟩,
      some (.error e)⟩) fun submission fresh heq => by cases heq
    refine ⟨fun fresh hok => (by cases hok), fun f _ => hlive, fun hlimit hleft => ?_⟩
    obtain rfl : e = .rateLimitExceeded := FinalizeFailure.store.inj (Except.error.inj hlimit)
    obtain ⟨hnone, hle⟩ := h.attempt.resolve_right fun hlast => by omega
    refine ⟨hlive, h.recorded.snoc fun answer heq => (by cases heq), ?_, .inr ⟨by omega, rfl, rfl, ?_⟩⟩
    · have hnext := (h.runs.mono (List.subset_append_left log [⟨.finalize ⟨t.claimId, t.ownerToken,
        payload, t.m.allowValidUntil⟩, some (.error .rateLimitExceeded)⟩])).snoc
          (c := .finalize rateView cancelled payload (.error .rateLimitExceeded)) trivial
      rw [TokenCall.perform, hinner] at hnext
      exact hnext
    · refine ⟨_, ?_, List.mem_concat_self⟩
      rw [VerifyLog.finalizations_append, hnone]
      rfl

theorem verifies_askFinalize (h : s.Finalizing archive log (attempts + 1) a t)
    (hbuilt : buildV2TerminalResult b a p claim verifiedAt = .ok (decision, payload))
    (cancelled : Bool) :
    Verifies P archive req cb (askFinalize t.toTokenState
        (finalizeClaimProofBundleV2Inner P rateView cancelled t.toTokenState payload)) log
      (s.Finalized archive attempts a t decision payload) := by
  have hinner : ∀ d, checkFinalization P rateView cancelled t.toTokenState payload = .ok d →
      finalizeClaimProofBundleV2Inner P rateView cancelled t.toTokenState payload
        = .call ⟨t.claimId, t.ownerToken, payload, t.m.allowValidUntil⟩ fun result =>
          .ret (result.mapError .store, { t.toTokenState with
            m := (t.m.start (v2FinalizationPayloadDigest P payload)).settle rateView d result }) := by
    intro d hcheck
    rw [finalizeClaimProofBundleV2Inner, hcheck]
    rfl
  cases hcheck : checkFinalization P rateView cancelled t.toTokenState payload with
  | error f =>
    obtain ⟨e, rfl⟩ := checkFinalization_eq_error hcheck
    rw [finalizeClaimProofBundleV2Inner, hcheck]
    exact h.live.refused e _
  | ok d =>
    obtain ⟨-, hadmitted⟩ := checkFinalization_eq_ok_iff.mp hcheck
    obtain rfl := decision_of_admitted hbuilt hadmitted
    rw [hinner _ hcheck, askFinalize]
    refine ⟨h.asks hbuilt hadmitted, fun answer => ?_⟩
    cases answer with
    | none => exact (h.live.snoc fun submission fresh heq => by cases heq).refused _ _
    | some answer =>
      refine h.answered hadmitted cancelled answer ?_
      rw [hinner _ hcheck]
      rfl

end Submission

/-- The context is asked at most once before a call. -/
theorem verifies_finalizationDone {attempts : Nat} (h : s.Finalizing archive log attempts a t) :
    Verifies P archive req cb (finalizationDone t.toTokenState) log fun log' _ =>
      s.Finalizing archive log' attempts a t := by
  rw [finalizationDone]
  split
  · exact h
  · exact verifies_isDone fun done => h.aside .done done trivial

/-- A result that is submitted is committed, retried once as a denial, or left. -/
theorem verifies_verifyFinalize {attempts : Nat} (h : s.Finalizing archive log attempts a t) :
    Verifies P archive req cb (verifyFinalize P s.rateView s.bundle s.claim p attempts a t) log
      (Ended P req cb) := by
  induction attempts generalizing log a t with
  | zero => exact ended_evaluating h.live _
  | succ attempts ih =>
    rw [verifyFinalize]
    refine meets_bind_iff.mpr (meets_orStop_iff.mpr ⟨fun built hbuilt => ?_, fun e _ =>
      ended_evaluating h.live e⟩)
    obtain ⟨decision, payload⟩ := built
    refine (verifies_finalizationDone h).andThen fun log cancelled h => ?_
    refine (verifies_askFinalize h hbuilt cancelled).andThen fun log r hfinalized => ?_
    obtain ⟨answer, token⟩ := r
    cases answer with
    | ok fresh => exact hfinalized.committed fresh rfl
    | error f =>
      have hlive := hfinalized.failed f rfl
      dsimp only
      refine meets_bind_iff.mpr (verifies_whileNotDone hlive ?_)
      split
      · rename_i hretry
        obtain ⟨rfl, hleft⟩ := hretry
        exact ih ((hfinalized.retried rfl hleft).aside .done false trivial)
      · exact ended_evaluating (hlive.aside .done false trivial) _

/-- Everything after the claim. -/
theorem verifies_verifyClaimed (h : s.Evaluating log) :
    Verifies P archive req cb (verifyClaimed P archive req cb s.rateView s.bundle s.claim s.token)
      log (Ended P req cb) := by
  rw [verifyClaimed]
  refine (verifies_verifyTrust h).andThen fun log r htrust => ?_
  refine (verifies_verifyLocal htrust.1 htrust.2).andThen fun log e hlocal => ?_
  refine (verifies_verifyStatus hlocal).andThen fun log e hstatus => ?_
  refine (verifies_verifyAudience hstatus).andThen fun log e haudience => ?_
  refine (verifies_verifyRate haudience).andThen fun log e hrate => ?_
  exact verifies_verifyFinalize ⟨hrate.evaluating.live, hrate.evaluating.recorded, hrate.runs,
    .inl ⟨hrate.evaluating.unfinalized, le_rfl⟩⟩

/-! ## The claim -/

section Claim

variable {claim : V2ChallengeClaim} {answer : Option (V2StoreResult V2ClaimResult)}

/-- The history of a claim. -/
def claimLog (claim : V2ChallengeClaim) (answer : Option (V2StoreResult V2ClaimResult)) :
    VerifyLog := [⟨.done, false⟩, ⟨.claim claim, answer⟩]

theorem quiet_claimLog : (claimLog claim answer).Quiet := by
  intro q hq
  obtain rfl | hq := List.mem_cons.mp hq
  · exact .inl rfl
  · rw [List.mem_singleton.mp hq]
    exact .inr ⟨claim, rfl⟩

theorem opened_claimLog (h : s.Opened (claimLog claim answer)) :
    s.claim = claim ∧ answer = some (.ok ⟨.created, s.claimedAt, s.ownerToken⟩) := by
  obtain h | h := List.mem_cons.mp h
  · cases h
  · cases List.mem_singleton.mp h
    exact ⟨rfl, rfl⟩

/-- A session is open only for a claim that was created with an owner. -/
theorem closed_claimLog {expected : ExpectedChallengeStateV2}
    (h : ∀ result, answer = some (.ok result) → ∀ token, claimAnswer expected claim result
      ≠ .ok (some token)) (s : Session P req cb) : ¬ s.Opened (claimLog claim answer) := by
  intro hopened
  obtain ⟨-, rfl⟩ := opened_claimLog hopened
  exact h _ rfl (.ofClaim expected claim s.claimedAt s.ownerToken) (by simp [claimAnswer, s.owner])

theorem ended_closed {e : V2Error} (hquiet : log.Quiet)
    (hclosed : ∀ s : Session P req cb, ¬ s.Opened log) :
    Ended P req cb log (.preflightFailure e) := .preflight hquiet hclosed

/-- An answer that gives a token has created the claim. -/
theorem claimAnswer_eq_some {expected : ExpectedChallengeStateV2} {result : V2ClaimResult}
    {token : V2EvaluationToken} (h : claimAnswer expected claim result = .ok (some token)) :
    ∃ claimedAt owner, result = ⟨.created, claimedAt, owner⟩ ∧ owner.length = 32
      ∧ token = .ofClaim expected claim claimedAt owner := by
  obtain ⟨disposition, claimedAt, owner⟩ := result
  rw [claimAnswer] at h
  split at h
  · rename_i hdisposition
    obtain rfl : disposition = .created := hdisposition
    split at h
    · cases h
    · rename_i howner
      exact ⟨claimedAt, owner, rfl, not_not.mp howner, (Option.some.inj (Except.ok.inj h)).symm⟩
  · split at h <;> cases h

/-- An answer without a token has found the claim. -/
theorem claimAnswer_eq_none {expected : ExpectedChallengeStateV2} {result : V2ClaimResult}
    (h : claimAnswer expected claim result = .ok none) : result.disposition ≠ .created := by
  intro hdisposition
  rw [claimAnswer, hdisposition] at h
  dsimp only at h
  split at h <;> cases h

theorem verifies_verifyClaim {rateView : Bool} {b : ProofBundleV2}
    {expected : ExpectedChallengeStateV2}
    (hpreflight : verifyPreflight P req cb = .ok (rateView, b, expected)) :
    Verifies P archive req cb (verifyClaim P req b expected) [] fun log r =>
      ∃ s : Session P req cb, s.rateView = rateView ∧ s.bundle = b ∧ r = (s.claim, s.token)
        ∧ s.Evaluating log := by
  rw [verifyClaim]
  refine meets_bind_iff.mpr (meets_orStop_iff.mpr ⟨fun claim hseal => ?_, fun e _ =>
    ended_closed (by simp [VerifyLog.Quiet]) fun s hopened => by cases hopened⟩)
  refine verifies_isDone fun done => ?_
  cases done with
  | true =>
    refine ended_closed (fun q hq => ?_) fun s hopened => ?_
    · exact .inl (by rw [List.mem_singleton.mp hq])
    · cases List.mem_singleton.mp hopened
  | false =>
    have hdue : Due P req cb [⟨.done, false⟩] (.claim claim) :=
      .claim hpreflight hseal fun q hq => by rw [List.mem_singleton.mp hq]
    refine meets_bind_iff.mpr ⟨asks_of_due hdue trivial, fun answer => ?_⟩
    have hclosed := @closed_claimLog P req cb claim answer expected
    show Verifies P archive req cb _ (claimLog claim answer) _
    refine meets_bind_iff.mpr (meets_orStop_iff.mpr ⟨fun result hresult => ?_, fun e he =>
      ended_closed quiet_claimLog (hclosed fun result hanswer => ?_)⟩)
    swap
    · rw [hanswer] at he
      cases he
    have hanswer : answer = some (.ok result) := by
      cases answer with
      | none => cases hresult
      | some r =>
        cases r with
        | error e => cases hresult
        | ok result' =>
          obtain rfl := Except.ok.inj hresult
          rfl
    subst hanswer
    refine meets_bind_iff.mpr (meets_orStop_iff.mpr ⟨fun token htoken => ?_, fun e he =>
      ended_closed quiet_claimLog (hclosed fun result' hsame token htoken => ?_)⟩)
    swap
    · obtain rfl := Except.ok.inj (Option.some.inj hsame)
      rw [htoken] at he
      cases he
    cases token with
    | none =>
      refine .replay quiet_claimLog (hclosed fun result' hsame token htoken' => ?_)
        (List.mem_cons_of_mem _ (List.mem_singleton.mpr rfl)) (claimAnswer_eq_none htoken)
      obtain rfl := Except.ok.inj (Option.some.inj hsame)
      cases htoken.symm.trans htoken'
    | some token =>
      obtain ⟨claimedAt, owner, rfl, howner, rfl⟩ := claimAnswer_eq_some htoken
      refine ⟨⟨rateView, b, expected, claim, claimedAt, owner, hpreflight, hseal, howner⟩,
        rfl, rfl, rfl, ⟨?_, rfl, ?_⟩⟩
      · exact List.mem_cons_of_mem _ (List.mem_singleton.mpr rfl)
      · intro status hheard
        obtain hheard | hheard := List.mem_cons.mp hheard
        · cases hheard
        · cases List.mem_singleton.mp hheard

end Claim

/-- A verification asks and ends as it may. -/
theorem verifies_verifyProofBundleV2 :
    Verifies P archive req cb (verifyProofBundleV2 P archive req cb) [] (Ended P req cb) := by
  rw [verifyProofBundleV2]
  refine meets_bind_iff.mpr (meets_orStop_iff.mpr ⟨fun r hpreflight => ?_, fun e _ =>
    ended_closed (by simp [VerifyLog.Quiet]) fun s hopened => by cases hopened⟩)
  obtain ⟨rateView, b, expected⟩ := r
  refine (verifies_verifyClaim hpreflight).andThen fun log r hclaim => ?_
  obtain ⟨s, rfl, rfl, rfl, hevaluating⟩ := hclaim
  exact verifies_verifyClaimed hevaluating

/-! ## The laws -/

variable (P archive req cb)

/-- How a verification ends in an environment that answers by what it was asked before, with
all that it has asked. -/
def verifyRun (env : VerifyLog → (c : VerifyCall) → c.Reply) : VerifyLog × V2VerifyOutcome :=
  let r := (verifyProofBundleV2 P archive req cb).run env []
  match r.2 with
  | .ok outcome => (r.1, outcome)
  | .error outcome => (r.1, outcome)

theorem verifyRun_log (env : VerifyLog → (c : VerifyCall) → c.Reply) :
    (verifyRun P archive req cb env).1 = ((verifyProofBundleV2 P archive req cb).run env []).1 := by
  rw [verifyRun]
  split <;> rfl

theorem verifyRun_meets (env : VerifyLog → (c : VerifyCall) → c.Reply) :
    (∀ before q after, (verifyRun P archive req cb env).1 = before ++ q :: after →
      Asks P archive req cb before q.1)
    ∧ Ended P req cb (verifyRun P archive req cb env).1 (verifyRun P archive req cb env).2 := by
  obtain ⟨rest, hlog, hasks, hpost, hends⟩ :=
    (@verifies_verifyProofBundleV2 P archive req cb).run env
  rw [List.nil_append] at hlog hpost hends
  rw [verifyRun]
  cases hr : ((verifyProofBundleV2 P archive req cb).run env []).2 with
  | ok outcome =>
    dsimp only
    rw [hlog]
    exact ⟨hasks, hpost outcome hr⟩
  | error outcome =>
    dsimp only
    rw [hlog]
    exact ⟨hasks, hends outcome hr⟩

/-- Every question was due when it was asked. -/
def VerifyLog.Orderly (log : VerifyLog) : Prop :=
  ∀ before q after, log = before ++ q :: after → Due P req cb before q.1

/-- Every allow that was submitted or handed over rests on answers heard before. -/
structure Grounded (log : VerifyLog) (outcome : V2VerifyOutcome) : Prop where
  submitted : ∀ before submission answer after,
    log = before ++ ⟨.finalize submission, answer⟩ :: after → submission.Allows →
      ∃ s : Session P req cb, s.Allowed archive before submission.allowValidUntil
  handed : ∀ c, outcome.committed = some c → c.allowHorizon ≠ 0 →
    ∃ (s : Session P req cb) (before : VerifyLog), before <+: log
      ∧ s.Allowed archive before c.allowHorizon ∧ c = .new s.claim c.receiptBody c.allowHorizon

variable {P archive req cb}

/-- Only an allow has a horizon. -/
theorem Due.allows {submission : Submission} (h : Due P req cb log (.finalize submission))
    (hne : submission.allowValidUntil ≠ 0) : submission.Allows := by
  cases h with
  | finalize _ _ _ _ _ hhorizon => exact hhorizon.mp hne

/-- A request has one claim. -/
theorem Session.claim_unique (s s' : Session P req cb) : s.claim = s'.claim := by
  have hpreflight := s.preflight.symm.trans s'.preflight
  simp only [Except.ok.injEq, Prod.mk.injEq] at hpreflight
  have hsealing := s.sealing
  rw [hpreflight.2.1, hpreflight.2.2, s'.sealing] at hsealing
  exact (Except.ok.inj hsealing).symm

variable (P archive req cb)

/-- The claim is made before all else, the progress of trust and of status is kept before they
are asked for and what the status was before anything later, and a result is submitted at most
twice, the second time as a denial of an allow that was rolled back. -/
theorem verify_order (env : VerifyLog → (c : VerifyCall) → c.Reply) :
    VerifyLog.Orderly P req cb (verifyRun P archive req cb env).1 :=
  fun before q after h => ((verifyRun_meets P archive req cb env).1 before q after h).due

/-- A failure before the claim or a replay has asked for nothing but the claim and opened no
session; one after it has committed nothing; and what is handed over is what the claim store
was last asked to commit, and committed. -/
theorem verify_outcome (env : VerifyLog → (c : VerifyCall) → c.Reply) :
    Ended P req cb (verifyRun P archive req cb env).1 (verifyRun P archive req cb env).2 :=
  (verifyRun_meets P archive req cb env).2

/-- An allow is submitted, and handed over, only on the answers of this very run: the claim was
created, the root of the chain was trusted, its status was current, the receiver was in the
audience, the rates were reserved, and it ends with the first of all the deadlines. -/
theorem verify_allow (env : VerifyLog → (c : VerifyCall) → c.Reply) :
    Grounded P archive req cb (verifyRun P archive req cb env).1
      (verifyRun P archive req cb env).2 := by
  obtain ⟨hasks, hended⟩ := verifyRun_meets P archive req cb env
  generalize verifyRun P archive req cb env = r at hasks hended
  obtain ⟨log, outcome⟩ := r
  dsimp only at hasks hended ⊢
  refine ⟨fun before submission answer after heq hallows =>
    (hasks before _ after heq).allowed submission rfl hallows, fun c hc hne => ?_⟩
  cases hended with
  | preflight => cases hc
  | replay => cases hc
  | evaluating => cases hc
  | committed s hlast _ _ =>
    obtain rfl := Option.some.inj hc
    obtain ⟨hdue, hallowed⟩ := hasks _ _ [] hlast
    obtain ⟨s', hs'⟩ := hallowed _ rfl (hdue.allows hne)
    refine ⟨s', _, ⟨_, hlast.symm⟩, hs', ?_⟩
    rw [s'.claim_unique s]
    rfl

end RatifyProtocol.V2
