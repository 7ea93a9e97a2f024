import RatifyProtocol.V2.Authorization.VerifyStore
import RatifyProtocol.V2.Reference.Drain
set_option autoImplicit false

/-!
# Authorization: one evaluation of a challenge

Every verification can be carried to its end on the reference store.  What it returns agrees
with what the store holds, and of all the verifications of one challenge at most one is
evaluated.
-/

namespace RatifyProtocol.V2

open Foundation

/-! ## Playing a verification -/

instance (c : VerifyCall) : Nonempty c.Reply := by
  cases c with
  | done => exact ⟨false⟩
  | status checks now =>
    exact ⟨{ assessment := "", reason := "", evidence := [], freshUntil := 0 }, false⟩
  | _ => exact ⟨none⟩

section Playing

variable {ω : Type} {P : Primitives} {anchor : StoreAnchor ω} {s : Anchored ω}

/-- The store answers its own questions, with an owner token of 32 bytes for a claim. -/
theorem exists_stored {c : VerifyCall} (hc : c.OfStore) (s : Anchored ω) :
    ∃ r event t, Stored ⟨c, r⟩ event ∧ Performs P anchor s event t := by
  cases c with
  | claim claim =>
    exact ⟨_, _, _, .claim claim (.ok (List.replicate 32 0))
      (fun token h => Except.ok.inj h ▸ List.length_replicate) _, rfl⟩
  | progress claimId ownerToken p => exact ⟨_, _, _, .progress claimId ownerToken p _, rfl⟩
  | finalize submission => exact ⟨_, _, _, .finalize submission _, rfl⟩
  | _ => exact hc.elim

variable {κ : Type} [DecidableEq κ] {n m : κ} {events : List (VerifyEvent κ)} {log : VerifyLog}

theorem askedBy_append {events' : List (VerifyEvent κ)} :
    askedBy n (events ++ events') = askedBy n events ++ askedBy n events' := List.filterMap_append

theorem askedBy_aside (q : Sigma VerifyCall.Reply) : askedBy n [.aside n q] = [q] :=
  List.filterMap_cons_some (if_pos rfl)

theorem askedBy_stored (q : Sigma VerifyCall.Reply) (event : StoreEvent) :
    askedBy n [.stored n q event] = [q] := List.filterMap_cons_some (if_pos rfl)

variable (P anchor s n log) in
/-- The verification `n` has asked this after `log`, and the store has answered. -/
def Played (later : VerifyLog) : Prop :=
  ∃ events t, SharedRun P anchor s events t ∧ (∀ e ∈ events, e.client = some n)
    ∧ later = log ++ askedBy n events

theorem Played.ask {later : VerifyLog} (h : Played P anchor s n log later) (c : VerifyCall) :
    ∃ r, Played P anchor s n log (later ++ [⟨c, r⟩]) := by
  obtain ⟨events, t, hrun, hn, rfl⟩ := h
  have hasked : ∀ {e : VerifyEvent κ} {r : c.Reply}, askedBy n [e] = [⟨c, r⟩] →
      log ++ askedBy n events ++ [⟨c, r⟩] = log ++ askedBy n (events ++ [e]) := by
    intro e r he
    rw [askedBy_append, he, List.append_assoc]
  have hclient : ∀ {e : VerifyEvent κ}, e.client = some n → ∀ e' ∈ events ++ [e],
      e'.client = some n := by
    intro e he e' hmem
    obtain hmem | hmem := List.mem_append.mp hmem
    · exact hn e' hmem
    · rw [List.mem_singleton.mp hmem]
      exact he
  by_cases hc : c.OfStore
  · obtain ⟨r, event, u, hstored, hperforms⟩ := exists_stored (P := P) hc t
    exact ⟨r, _, u, hrun.snoc (.stored (n := n) hstored hperforms), hclient rfl,
      hasked (askedBy_stored _ _)⟩
  · obtain ⟨r⟩ := (inferInstance : Nonempty c.Reply)
    exact ⟨r, _, t, hrun.snoc (.aside (n := n) hc), hclient rfl, hasked (askedBy_aside _)⟩

/-- With the store, some environment carries every verification to its end. -/
theorem exists_sharedRun {α : Type} (n : κ) (s : Anchored ω) (d : Verification α) (log : VerifyLog) :
    ∃ env events t, SharedRun P anchor s events t ∧ (∀ e ∈ events, e.client = some n)
      ∧ (d.run env log).1 = log ++ askedBy n events :=
  d.exists_run (Played P anchor s n log) (fun _ c h => h.ask c)
    ⟨[], s, .nil, by simp, (List.append_nil log).symm⟩

/-- What others ask is not asked by `n`. -/
theorem askedBy_of_others (h : ∀ e ∈ events, e.client = some m) (hne : n ≠ m) :
    askedBy n events = [] := by
  refine List.filterMap_eq_nil_iff.mpr fun e he => ?_
  have hm := h e he
  cases e with
  | other _ => rfl
  | aside k q =>
    obtain rfl := Option.some.inj hm
    exact if_neg hne.symm
  | stored k q _ =>
    obtain rfl := Option.some.inj hm
    exact if_neg hne.symm

/-! ## Openings -/

variable {req : V2VerifyRequest} {cb : V2VerifyCallbacks} {archive : ZoneArchive}

/-- What a verification has asked when its claim is created. -/
def Session.openingLog (x : Session P req cb) : VerifyLog :=
  [⟨.done, false⟩, ⟨.claim x.claim, some (.ok ⟨.created, x.claimedAt, x.ownerToken⟩)⟩]

/-- The claim is created, and the rest is answered by `env`. -/
def Session.opening (x : Session P req cb) (env : VerifyLog → (c : VerifyCall) → c.Reply) :
    VerifyLog → (c : VerifyCall) → c.Reply
  | [], .done => false
  | [_], .claim _ => some (.ok ⟨.created, x.claimedAt, x.ownerToken⟩)
  | log, c => env log c

theorem Session.verifyRun_opening (x : Session P req cb)
    (env : VerifyLog → (c : VerifyCall) → c.Reply) :
    (verifyRun P archive req cb (x.opening env)).1
      = ((verifyClaimed P archive req cb x.rateView x.bundle x.claim x.token).run env
        x.openingLog).1 := by
  have hclaim : claimAnswer x.expected x.claim ⟨.created, x.claimedAt, x.ownerToken⟩
      = .ok (some x.token) := by simp [claimAnswer, x.owner, Session.token]
  have hrun : (verifyProofBundleV2 P archive req cb).run (x.opening env) []
      = (verifyClaimed P archive req cb x.rateView x.bundle x.claim x.token).run (x.opening env)
        x.openingLog := by
    rw [verifyProofBundleV2, x.preflight]
    show ((verifyClaim P req x.bundle x.expected >>= fun r =>
      verifyClaimed P archive req cb x.rateView x.bundle r.1 r.2).run (x.opening env) []) = _
    rw [verifyClaim, x.sealing]
    show ((Dialogue.orStop _ (claimAnswer x.expected x.claim ⟨.created, x.claimedAt, x.ownerToken⟩)
      >>= _) >>= _ : Verification V2VerifyOutcome).run (x.opening env) x.openingLog = _
    rw [hclaim]
    rfl
  rw [verifyRun_log, hrun]
  exact congrArg Prod.fst (Dialogue.run_congr fun later c => rfl)

/-- A claim that the store creates is the start of a whole verification. -/
theorem Session.exists_opened (x : Session P req cb) {t : Anchored ω} (archive : ZoneArchive) (n : κ)
    (hclaim : Performs P anchor s (.claim x.claim (.ok x.ownerToken),
      .ok (.claimed ⟨.created, x.claimedAt, x.ownerToken⟩)) t) :
    ∃ env events u, SharedRun P anchor s events u ∧ (∀ e ∈ events, e.client = some n)
      ∧ askedBy n events = (verifyRun P archive req cb env).1
      ∧ (verifyRun P archive req cb env).2.disposition = some .created := by
  obtain ⟨env, events, u, hrun, hn, hlog⟩ := @exists_sharedRun _ P anchor _ _ _ n t
    (verifyClaimed P archive req cb x.rateView x.bundle x.claim x.token) x.openingLog
  have hstored : Stored ⟨.claim x.claim, some (.ok ⟨.created, x.claimedAt, x.ownerToken⟩)⟩
      (.claim x.claim (.ok x.ownerToken), .ok (.claimed ⟨.created, x.claimedAt, x.ownerToken⟩)) :=
    .claim x.claim (.ok x.ownerToken) (fun token h => Except.ok.inj h ▸ x.owner) (.ok (.claimed _))
  have hfirst : SharedRun P anchor s [.aside n ⟨.done, false⟩] s :=
    .single (.aside fun hstore => hstore)
  have hopening := hfirst.snoc (.stored (n := n) hstored hclaim)
  refine ⟨x.opening env, _, u, hopening.append hrun, ?_, ?_, ?_⟩
  · intro e he
    obtain he | he := List.mem_append.mp he
    · obtain he | he := List.mem_append.mp he <;> rw [List.mem_singleton.mp he] <;> rfl
    · exact hn e he
  · rw [x.verifyRun_opening, hlog, askedBy_append, askedBy_append, askedBy_aside, askedBy_stored]
    rfl
  · refine (verifyRun_meets P archive req cb (x.opening env)).2.created (x := x) ?_
    rw [x.verifyRun_opening, hlog]
    exact List.mem_append_left _ (List.mem_cons_of_mem _ (List.mem_singleton.mpr rfl))

end Playing

/-! ## Two verifications of one proof -/

/-- A request for `limitedBundle`. -/
def ratedRequest (wire : Bytes) : V2VerifyRequest where
  bundle := wire
  expected := some ratedSealed.toExpectedChallengeV2
  contextPolicy := some unboundPolicy
  requiredScope := "data:read"
  verifierNamespace := "namespace"
  replayEpoch := 1
  verifierId := hexEncode (1 :: List.replicate 31 0)
  now := 110
  maxChallengeAgeSeconds := 60
  futureSkewSeconds := 5
  context := ratedOptions.context
  tzdbVersion := ""
  statusKeys := .empty
  statusPolicy := { maxListLifetimeSeconds := 60, maxStatusAgeSeconds := 60, clockSkewSeconds := 5 }
  constraintEvaluators := none

/-- Only the claim store is configured. -/
def storeOnly : V2VerifyCallbacks where
  receiverBinding := none
  claimStore := some false
  trust := false
  audience := false
  rate := .absent

theorem snapshot_rated : snapshotExpectedChallengeV2 ratedSealed.toExpectedChallengeV2
    (some unboundPolicy) none limitedBundle ratedHash
    (claimTimeInputs ratedSealed "namespace" 1 110) = ratedSealed := by
  have hissuers : sortedUnique (limitedBundle.delegations.map DelegationCertV2.issuerId)
      = ratedSealed.issuerIds := by
    decide +kernel
  have hevaluators : snapshotConstraintEvaluatorsV2 none limitedBundle
      = (ratedSealed.evaluators, []) := rfl
  rw [snapshotExpectedChallengeV2, hissuers, hevaluators]
  rfl

theorem preflight_rated : preflightProofBundleV2Inner (counting []) limitedBundle
    (some ratedSealed.toExpectedChallengeV2) (some unboundPolicy) true none none
    (claimTimeInputs ratedSealed "namespace" 1 110) = .ok ratedSealed := by
  have hpolicy : checkConfiguredPolicy ratedSealed.toExpectedChallengeV2 (some unboundPolicy) true
      = .ok () := by
    decide +kernel
  rw [preflightProofBundleV2Inner_unhooked hpolicy validateProofBundleV2Preflight_rated
    bundleHashV2_rated, snapshot_rated]

theorem configured_rated (wire : Bytes) :
    validateV2VerifyConfiguration (counting []) (ratedRequest wire) = .ok () := by
  show validateV2VerifyConfiguration (counting []) (ratedRequest []) = .ok ()
  decide +kernel

theorem verifyPreflight_ok {P : Primitives} {req : V2VerifyRequest} {cb : V2VerifyCallbacks} {b : ProofBundleV2}
    {view : Bool} {x : ExpectedChallengeStateV2}
    (hwire : decodeProofBundleV2 P req.bundle = .ok b) (hstore : cb.claimStore = some view)
    (hconf : validateV2VerifyConfiguration P req = .ok ())
    (hpre : preflightProofBundleV2Inner P b req.expected req.contextPolicy true
      cb.receiverBinding req.constraintEvaluators req.inputs = .ok x) :
    verifyPreflight P req cb = .ok (view, b, x) := by
  rw [verifyPreflight, hwire, ok_bind, hstore]
  simp only [hconf, ok_bind, hpre]

theorem verifyPreflight_rated {wire : Bytes}
    (hwire : decodeProofBundleV2 (counting []) wire = .ok limitedBundle) :
    verifyPreflight (counting []) (ratedRequest wire) storeOnly
      = .ok (false, limitedBundle, ratedSealed) :=
  verifyPreflight_ok hwire rfl (configured_rated wire) preflight_rated

theorem exists_ratedRequest : ∃ wire, verifyPreflight (counting []) (ratedRequest wire) storeOnly
    = .ok (false, limitedBundle, ratedSealed) := by
  obtain ⟨wire, -, hwire, -⟩ := plainBundle_limited.exists_wire
  exact ⟨wire, verifyPreflight_rated hwire⟩

/-- Two verifications of one proof, the first of which has created the claim. -/
theorem exists_twoVerifications : ∃ (wire : Bytes) (env env' : VerifyLog → (c : VerifyCall) → c.Reply)
    (events : List (VerifyEvent Bool)) (s : Anchored Unit),
    SharedRun (counting []) none { store := firstStore, device := () } events s
      ∧ askedBy false events
        = (verifyRun (counting []) (.error "") (ratedRequest wire) storeOnly env).1
      ∧ askedBy true events
        = (verifyRun (counting []) (.error "") (ratedRequest wire) storeOnly env').1
      ∧ (verifyRun (counting []) (.error "") (ratedRequest wire) storeOnly env).2.disposition
        = some .created := by
  obtain ⟨wire, hpreflight⟩ := exists_ratedRequest
  obtain ⟨claim, hclaim⟩ := exists_ratedClaim
  have hsealed := sealChallengeClaim_eq_ok hclaim
  obtain ⟨hstream, hseq⟩ := hsealed.stream
  have hset : SharedRun (κ := Bool) (counting []) none { store := firstStore, device := () }
      [.other (.setTime 110, .ok .configured)]
      { store := { firstStore with now := 110 }, device := () } := .single (.other rfl)
  obtain ⟨t, hcreates, -⟩ := @claimV2_creates Unit (counting []) none AnchorAccepts.none claim
    (List.replicate 32 0) none { store := { firstStore with now := 110 }, device := () }
    ⟨by decide, by decide, by decide⟩ hsealed.keyed rfl hsealed.current
    (by rw [claimStreamAdvance, hstream, hseq]; rfl)
  let x : Session (counting []) (ratedRequest wire) storeOnly :=
    ⟨false, limitedBundle, ratedSealed, claim, 110, List.replicate 32 0, hpreflight, hclaim,
      List.length_replicate⟩
  obtain ⟨env, events, u, hrun, hn, hasked, hcreated⟩ := x.exists_opened (.error "") false
    (performs_of_apply rfl hcreates)
  obtain ⟨env', events', s, hrun', hm, hasked'⟩ := @exists_sharedRun _ (counting []) none _ _ _ true u
    (verifyProofBundleV2 (counting []) (.error "") (ratedRequest wire) storeOnly) []
  have hnone : askedBy false [VerifyEvent.other (.setTime 110, .ok .configured)] = [] := rfl
  have hnone' : askedBy true [VerifyEvent.other (.setTime 110, .ok .configured)] = [] := rfl
  refine ⟨wire, env, env', _, s, (hset.append hrun).append hrun', ?_, ?_, hcreated⟩
  · rw [askedBy_append, askedBy_append, hnone, askedBy_of_others hm Bool.false_ne_true,
      List.append_nil, hasked]
    rfl
  · rw [askedBy_append, askedBy_append, hnone', askedBy_of_others hn Bool.false_ne_true.symm,
      verifyRun_log, hasked']
    rfl

/-! ## The laws -/

/-- Two outcomes are not both of created claims of one challenge. -/
def SpentOnce (outcome outcome' : V2VerifyOutcome) : Prop :=
  ∀ claim claim', outcome.disposition = some .created → outcome.claim = some claim →
    outcome'.disposition = some .created → outcome'.claim = some claim' →
      claim.replayKey ≠ claim'.replayKey

section Laws

variable {ω : Type} {κ : Type} [DecidableEq κ] {P : Primitives} {anchor : StoreAnchor ω}
  {s : Anchored ω} {events : List (VerifyEvent κ)} {n m : κ}
  {now leaseSeconds : Int} {logId : String} {verifierKey : HybridPublicKey} {first : StoreState}
  {device : ω} {archive archive' : ZoneArchive} {req req' : V2VerifyRequest}
  {cb cb' : V2VerifyCallbacks} {env env' : VerifyLog → (c : VerifyCall) → c.Reply}

omit [DecidableEq κ] in
theorem SharedRun.claimHistory (hnew : StoreState.new P now leaseSeconds logId verifierKey = .ok first)
    (run : SharedRun P anchor { store := first, device } events s) :
    ClaimHistory P (storeEvents events) s.store := by
  obtain ⟨verifierId, -, -, -, hfirst⟩ := StoreState.new_eq_ok hnew
  exact run.storeRun.claimHistory (by rw [hfirst]) (by rw [hfirst])

/-- Whatever else the store is called with, and in whatever order: a verification that fails
before its claim or finds a replay has changed nothing, one that is left evaluating has
committed nothing, and what is handed over is what the store holds. -/
theorem verify_store (hnew : StoreState.new P now leaseSeconds logId verifierKey = .ok first)
    (run : SharedRun P anchor { store := first, device } events s)
    (hasked : askedBy n events = (verifyRun P archive req cb env).1) :
    StoreAgrees P anchor { store := first, device } events s n (verifyRun P archive req cb env).2 := by
  obtain ⟨hasks, hended⟩ := verifyRun_meets P archive req cb env
  rw [← hasked] at hasks hended
  generalize (verifyRun P archive req cb env).2 = outcome at hended
  have hdue : ∀ before q after, askedBy n events = before ++ q :: after →
      Due P req cb before q.1 := fun before q after h => (hasks before q after h).due
  refine ⟨fun hstage before e after u v hevents hn _ hstep => ?_,
    fun hnone before e after u v hevents hn _ hstep id hafter => ?_, fun c hc => ?_⟩
  · have he : e ∈ events := hevents ▸ List.mem_append_right _ List.mem_cons_self
    cases hended with
    | preflight hquiet hclosed => exact durablesKept_of_quiet hdue hquiet hclosed he hn hstep
    | replay hquiet hclosed => exact durablesKept_of_quiet hdue hquiet hclosed he hn hstep
    | evaluating => obtain hstage | hstage := hstage <;> cases hstage
    | committed => obtain hstage | hstage := hstage <;> cases hstage
  · have he : e ∈ events := hevents ▸ List.mem_append_right _ List.mem_cons_self
    exact isTerminal_of_uncommitted (hended.not_commits hnone) he hn hstep hafter
  · cases hended with
    | preflight => cases hc
    | replay => cases hc
    | evaluating => cases hc
    | committed x hlast _ hopened huncommitted =>
      obtain rfl := Option.some.inj hc
      obtain ⟨r, hr, hstate, hbody, hclaim, hhorizon⟩ := committed_agrees run
        (fun run => run.claimHistory hnew) hdue hlast hopened huncommitted
      exact ⟨r, hr, hstate, hbody, by rw [hclaim]; rfl, by rw [hclaim]; rfl, hhorizon⟩

theorem verify_store_rated : ∃ (wire : Bytes) (env : VerifyLog → (c : VerifyCall) → c.Reply)
    (events : List (VerifyEvent Bool)) (s : Anchored Unit),
    (verifyRun (counting []) (.error "") (ratedRequest wire) storeOnly env).2.disposition
        = some .created
      ∧ StoreAgrees (counting []) none { store := firstStore, device := () } events s false
        (verifyRun (counting []) (.error "") (ratedRequest wire) storeOnly env).2 := by
  obtain ⟨wire, env, -, events, s, hrun, hasked, -, hcreated⟩ := exists_twoVerifications
  exact ⟨wire, env, events, s, hcreated, verify_store (accepting_counting []).new_firstStore hrun hasked⟩

/-- Of any number of verifications of one challenge on one store, at most one is evaluated. -/
theorem verify_singleUse (hnew : StoreState.new P now leaseSeconds logId verifierKey = .ok first)
    (run : SharedRun P anchor { store := first, device } events s) (hne : n ≠ m)
    (hn : askedBy n events = (verifyRun P archive req cb env).1)
    (hm : askedBy m events = (verifyRun P archive' req' cb' env').1) :
    SpentOnce (verifyRun P archive req cb env).2 (verifyRun P archive' req' cb' env').2 := by
  obtain ⟨-, hended⟩ := verifyRun_meets P archive req cb env
  obtain ⟨-, hended'⟩ := verifyRun_meets P archive' req' cb' env'
  rw [← hn] at hended
  rw [← hm] at hended'
  intro claim claim' hcreated hclaim hcreated' hclaim' hsame
  obtain ⟨x, hopened, hx⟩ := hended.session hcreated
  obtain ⟨x', hopened', hx'⟩ := hended'.session hcreated'
  obtain rfl := Option.some.inj (hclaim.symm.trans hx)
  obtain rfl := Option.some.inj (hclaim'.symm.trans hx')
  obtain ⟨q, event, hmem, hevent⟩ := run.created hopened
  obtain ⟨q', event', hmem', hevent'⟩ := run.created hopened'
  have hnodup := (run.claimHistory hnew).createdOnce
  rw [createdClaims, storeEvents, List.filterMap_filterMap] at hnodup
  cases eq_of_nodup_filterMap hnodup hmem hmem' hevent hevent' hsame
  exact hne rfl

theorem verify_singleUse_rated : ∃ (wire : Bytes) (env env' : VerifyLog → (c : VerifyCall) → c.Reply),
    (verifyRun (counting []) (.error "") (ratedRequest wire) storeOnly env).2.disposition
        = some .created
      ∧ SpentOnce (verifyRun (counting []) (.error "") (ratedRequest wire) storeOnly env).2
        (verifyRun (counting []) (.error "") (ratedRequest wire) storeOnly env').2 := by
  obtain ⟨wire, env, env', events, s, hrun, hasked, hasked', hcreated⟩ := exists_twoVerifications
  exact ⟨wire, env, env', hcreated, verify_singleUse (accepting_counting []).new_firstStore hrun
    Bool.false_ne_true hasked hasked'⟩

end Laws

end RatifyProtocol.V2
