import RatifyProtocol.V2.Reference.Calls
set_option autoImplicit false

/-!
# Reference store: what each operation does

One theorem an operation: either it leaves the store as it was, but for the
clock's high-water mark, or it makes the one change named here, which says under
which checks it was made.
-/

namespace RatifyProtocol.V2

open Foundation

variable {ω : Type} {P : Primitives} {anchor : StoreAnchor ω}

theorem Quiet.refl (s : StoreState) : Quiet s s := .inl rfl

theorem Quiet.ticked {s : StoreState} (h : ClockReady s) : Quiet s s.ticked := .inr ⟨h, rfl⟩

/-! ## Claims -/

/-- A claim created a record. -/
structure ClaimCreated (P : Primitives) (claim : V2ChallengeClaim) (token : Bytes)
    (advance : Option (StreamKey × Int)) (s t : StoreState) : Prop where
  ready : ClockReady s
  key : claimIdMatchesKey P claim = true
  unused : s.claims.get? claim.claimId = none
  current : challengeClaimTimeCurrentV2 claim s.now = true
  stream : claimStreamAdvance s claim = .ok advance
  state : t = insertClaim advance
    (newClaimRecord claim (P.sha256 token) (wrapI64 (s.now + s.leaseSeconds)) s.now) s.ticked

theorem claimV2_cases {claim : V2ChallengeClaim} {owner : Except String Bytes}
    {s t : Anchored ω} {r : V2StoreResult V2ClaimResult}
    (h : claimV2 P anchor claim owner s = (r, t)) :
    (Quiet s.store t.store ∧ ∀ a, r = .ok a → a.disposition ≠ .created)
      ∨ ∃ token advance, owner = .ok token
        ∧ ClaimCreated P claim token advance s.store t.store
        ∧ r = .ok { disposition := .created, claimedAt := s.store.now, ownerToken := token } := by
  simp only [claimV2] at h
  split at h
  · cases h
    exact .inl ⟨.refl _, nofun⟩
  rename_i hkey
  rcases attempt_readClockLocked_bind_cases h with ⟨e, h⟩ | ⟨hready, h⟩
  · cases h
    exact .inl ⟨.refl _, nofun⟩
  have hquiet : Quiet s.store s.tick.store := .ticked hready
  simp only [getStore_bind] at h
  cases hunused : s.tick.store.claims.get? claim.claimId with
  | some existing =>
    simp only [hunused] at h
    split at h
    · cases h
      exact .inl ⟨hquiet, nofun⟩
    split at h
    · cases h
      exact .inl ⟨hquiet, nofun⟩
    · cases h
      refine .inl ⟨hquiet, fun a ha => ?_⟩
      cases ha
      simp only
      split <;> nofun
  | none =>
  simp only [hunused] at h
  split at h
  · cases h
    exact .inl ⟨hquiet, nofun⟩
  rename_i hcurrent
  rcases Operation.lift_bind_cases h with ⟨e, rfl, rfl⟩ | ⟨advance, hadvance, h⟩
  · exact .inl ⟨hquiet, nofun⟩
  cases owner with
  | error m =>
    cases h
    exact .inl ⟨hquiet, nofun⟩
  | ok token =>
    rcases changeLocked_bind_cases (undone_insertClaim _ _) h with ⟨⟨e, rfl⟩, hs⟩ | ⟨u, hu, h⟩
    · exact .inl ⟨hs ▸ hquiet, nofun⟩
    · cases h
      exact .inr ⟨token, advance, rfl,
        { ready := hready, key := by simpa using hkey, unused := hunused,
          current := by simpa using hcurrent, stream := hadvance, state := hu }, rfl⟩

/-! ## The owner check -/

/-- The evaluator capability of a live, evaluating claim. -/
structure OwnerLive (P : Primitives) (claimId : String) (token : Bytes) (record : ClaimRecord)
    (s : StoreState) : Prop where
  ready : ClockReady s
  found : s.claims.get? claimId = some record
  owner : P.sha256 token = record.ownerDigest
  evaluating : record.state = .evaluating
  afterClaim : record.claimedAt ≤ s.now
  leaseLive : s.now < record.leaseExpiresAt

theorem ownerLocked_bind_cases {α : Type} {claimId : String} {token : Bytes}
    {f : Except OwnerFailure Int → StoreM ω α} {s t : Anchored ω} {r : V2StoreResult α}
    (h : (ownerLocked P claimId token >>= f) s = (r, t)) :
    (∃ e u, Quiet s.store u.store ∧ f (.error (.failed e)) u = (r, t))
      ∨ (∃ e record, s.store.claims.get? claimId = some record ∧ record.state = .terminal
        ∧ f (.error (.terminal e)) s = (r, t))
      ∨ ∃ record, OwnerLive P claimId token record s.store
        ∧ f (.ok s.store.now) s.tick = (r, t) := by
  rcases Operation.bind_cases h with ⟨e, he, -⟩ | ⟨a, u, hu, h⟩
  · exfalso
    simp only [ownerLocked, getStore_bind] at he
    cases hfound : s.store.claims.get? claimId with
    | none =>
      simp only [hfound] at he
      cases he
    | some record =>
    simp only [hfound] at he
    split at he
    · cases he
    split at he
    · cases he
    rcases attempt_readClockLocked_bind_cases he with ⟨e, he⟩ | ⟨-, he⟩
    · cases he
    · simp only at he
      split at he
      · cases he
      split at he <;> cases he
  · simp only [ownerLocked, getStore_bind] at hu
    cases hfound : s.store.claims.get? claimId with
    | none =>
      simp only [hfound] at hu
      cases hu
      exact .inl ⟨_, _, .refl _, h⟩
    | some record =>
    simp only [hfound] at hu
    split at hu
    · cases hu
      exact .inl ⟨_, _, .refl _, h⟩
    rename_i howner
    split at hu
    · rename_i hterminal
      cases hu
      exact .inr (.inl ⟨_, record, rfl, hterminal, h⟩)
    rename_i hstate
    rcases attempt_readClockLocked_bind_cases hu with ⟨e, hu⟩ | ⟨hready, hu⟩
    · cases hu
      exact .inl ⟨_, _, .refl _, h⟩
    · simp only at hu
      split at hu
      · cases hu
        exact .inl ⟨_, _, .ticked hready, h⟩
      rename_i hafter
      split at hu
      · cases hu
        exact .inl ⟨_, _, .ticked hready, h⟩
      rename_i hlease
      cases hu
      refine .inr (.inr ⟨record, ?_, h⟩)
      exact { ready := hready, found := hfound, owner := not_not.mp howner,
              evaluating := by cases hs : record.state <;> simp_all,
              afterClaim := not_lt.mp hafter, leaseLive := not_le.mp hlease }

/-! ## Finalization -/

/-- The commit is admitted against the sealed rate batch. -/
def admitsRate (s : StoreState) (record : ClaimRecord) (allowValidUntil : Int) : Bool :=
  decide (allowValidUntil > 0) && s.rateAtFinalization && !record.claim.rateBatch.isEmpty

/-- The store after a terminal commit at the current reading. -/
def committedState (claimId : String) (record : ClaimRecord) (terminal body : Bytes)
    (horizon : Int) (admitted : Bool) (s : StoreState) : StoreState :=
  { s.ticked with
    claims := s.claims.insert claimId
      (record.commit terminal body horizon s.now s.outbox.length),
    outbox := s.outbox ++ [committedEntry claimId body],
    rateCommits :=
      if admitted then (admitBatch s.now record.claim.rateBatch s).rateCommits else s.rateCommits }

theorem commitTerminalLocked_eq {claimId : String} {record : ClaimRecord} {terminal body : Bytes}
    {horizon : Int} (admitted : Bool) {s : StoreState}
    (hfound : s.claims.get? claimId = some record) :
    commitTerminalLocked claimId terminal body horizon s.now
        (if admitted then admitBatch s.now record.claim.rateBatch s.ticked else s.ticked)
      = committedState claimId record terminal body horizon admitted s := by
  have hfound' : s.ticked.claims.get? claimId = some record := hfound
  cases admitted
  · simp only [commitTerminalLocked, committedState, Bool.false_eq_true, if_false, hfound']
    rfl
  · have hadmission : (admitBatch s.now record.claim.rateBatch s.ticked).claims.get? claimId
        = some record := hfound
    simp only [commitTerminalLocked, committedState, if_true, hadmission]
    rfl

/-- The owner committed a terminal result while its lease was live. -/
structure FinalizeCommitted (P : Primitives) (claimId : String) (token terminal body : Bytes)
    (horizon : Int) (record : ClaimRecord) (receipt : VerificationReceiptV2)
    (s t : StoreState) : Prop extends OwnerLive P claimId token record s where
  payload : validateV2FinalizationPayload record.claim terminal body = .ok ()
  decoded : decodeVerificationReceiptBodyV2 body = .ok receipt
  horizonMatches : horizonOk receipt.decision horizon = true
  inTime : 0 < horizon → s.now < horizon ∧ s.now < record.claim.expiresAt
  capacity : admitsRate s record horizon = true →
    ∀ item ∈ record.claim.rateBatch, rateExhausted s s.now item = false
  state : t = committedState claimId record terminal body horizon
    (admitsRate s record horizon) s

theorem finalizeV2Claim_cases {claimId : String} {token terminal body : Bytes} {horizon : Int}
    {s t : Anchored ω} {r : V2StoreResult Bool}
    (h : finalizeV2Claim P anchor claimId token terminal body horizon s = (r, t)) :
    (Quiet s.store t.store ∧ r ≠ .ok true
        ∧ (r = .ok false →
          ∃ record, s.store.claims.get? claimId = some record ∧ record.state = .terminal))
      ∨ ∃ record receipt,
        FinalizeCommitted P claimId token terminal body horizon record receipt s.store t.store
        ∧ r = .ok true := by
  simp only [finalizeV2Claim] at h
  rcases ownerLocked_bind_cases h with ⟨e, u, hquiet, h⟩ | ⟨e, record, hfound, hterminal, h⟩
    | ⟨record, hlive, h⟩
  · cases h
    exact .inl ⟨hquiet, nofun, nofun⟩
  · simp only [getStore_bind] at h
    split at h
    · cases h
      exact .inl ⟨.refl _, nofun, fun _ => ⟨record, hfound, hterminal⟩⟩
    · cases h
      exact .inl ⟨.refl _, nofun, nofun⟩
  have hquiet : Quiet s.store s.tick.store := .ticked hlive.ready
  have hfound : s.tick.store.claims.get? claimId = some record := hlive.found
  simp only [getStore_bind, hfound] at h
  rcases Operation.lift_bind_cases h with ⟨e, rfl, rfl⟩ | ⟨_, hpayload, h⟩
  · exact .inl ⟨hquiet, nofun, nofun⟩
  rcases Operation.lift_bind_cases h with ⟨e, rfl, rfl⟩ | ⟨receipt, hdecoded, h⟩
  · exact .inl ⟨hquiet, nofun, nofun⟩
  split at h
  · cases h
    exact .inl ⟨hquiet, nofun, nofun⟩
  rename_i hhorizon
  split at h
  · cases h
    exact .inl ⟨hquiet, nofun, nofun⟩
  rename_i htime
  split at h
  · cases h
    exact .inl ⟨hquiet, nofun, nofun⟩
  rename_i hrate
  rcases changeLocked_bind_cases (undone_commitTerminal _ _ _ _ _ _ _) h with
    ⟨⟨e, rfl⟩, hs⟩ | ⟨u, hu, h⟩
  · exact .inl ⟨hs ▸ hquiet, nofun, nofun⟩
  cases h
  refine .inr ⟨record, receipt, ?_, rfl⟩
  exact
    { toOwnerLive := hlive
      payload := liftV2_eq_ok_iff.mp hpayload
      decoded := liftV2_eq_ok_iff.mp hdecoded
      horizonMatches := by simpa using hhorizon
      inTime := fun hpos => by
        constructor <;> by_contra hlt
        · exact htime ⟨hpos, .inl (not_lt.mp hlt)⟩
        · exact htime ⟨hpos, .inr (not_lt.mp hlt)⟩
      capacity := fun hadmission item hitem => by
        by_contra hex
        have hexhausted : rateExhausted s.store s.store.now item = true := by simpa using hex
        exact hrate (Bool.and_eq_true_iff.mpr
          ⟨hadmission, List.any_eq_true.mpr ⟨item, hitem, hexhausted⟩⟩)
      state := by
        rw [hu]
        exact commitTerminalLocked_eq _ hlive.found }

/-! ## Progress -/

/-- The owner stored its progress while its lease was live. -/
structure ProgressRecorded (P : Primitives) (claimId : String) (token : Bytes)
    (progress : V2EvaluationProgress) (record : ClaimRecord) (s t : StoreState) : Prop
    extends OwnerLive P claimId token record s where
  valid : validateV2EvaluationProgressInner progress = .ok ()
  state : t = { s.ticked with claims := s.claims.insert claimId { record with progress } }

theorem recordV2EvaluationProgress_cases {claimId : String} {token : Bytes}
    {progress : V2EvaluationProgress} {s t : Anchored ω} {r : V2StoreResult Unit}
    (h : recordV2EvaluationProgress P anchor claimId token progress s = (r, t)) :
    Quiet s.store t.store
      ∨ (∃ record, ProgressRecorded P claimId token progress record s.store t.store)
        ∧ r = .ok () := by
  simp only [recordV2EvaluationProgress] at h
  rcases ownerLocked_bind_cases h with ⟨e, u, hquiet, h⟩ | ⟨e, -, -, -, h⟩ | ⟨record, hlive, h⟩
  · cases h
    exact .inl hquiet
  · cases h
    exact .inl (.refl _)
  have hquiet : Quiet s.store s.tick.store := .ticked hlive.ready
  cases hvalid : validateV2EvaluationProgressInner progress with
  | error e =>
    simp only [hvalid] at h
    cases h
    exact .inl hquiet
  | ok =>
  simp only [hvalid] at h
  have hundone : Undone fun s =>
      { s with claims := s.claims.modify claimId fun r => { r with progress } } := fun _ => rfl
  rcases changeLocked_cases hundone h with ⟨-, hs⟩ | ⟨hr, hs⟩
  · exact .inl (hs ▸ hquiet)
  · refine .inr ⟨⟨record, { toOwnerLive := hlive, valid := hvalid, state := ?_ }⟩, hr⟩
    have hfound : s.tick.store.claims.get? claimId = some record := hlive.found
    rw [hs, OrderedMap.modify_of_get? hfound]
    rfl

/-! ## Recovery and loading -/

/-- A recovery committed the interrupted result after the lease expired. -/
structure RecoverCommitted (claimId : String) (terminal body : Bytes) (record : ClaimRecord)
    (receipt : VerificationReceiptV2) (s t : StoreState) : Prop where
  ready : ClockReady s
  found : s.claims.get? claimId = some record
  evaluating : record.state = .evaluating
  leaseExpired : record.leaseExpiresAt ≤ s.now
  payload : validateV2FinalizationPayload record.claim terminal body = .ok ()
  decoded : decodeVerificationReceiptBodyV2 body = .ok receipt
  decision : receipt.decision = "indeterminate"
  reason : receipt.decisionReason = "evaluation_interrupted"
  state : t = committedState claimId record terminal body 0 false s

theorem recoverInterruptedV2Claim_cases {claimId : String} {terminal body : Bytes}
    {s t : Anchored ω} {r : V2StoreResult Bool}
    (h : recoverInterruptedV2Claim anchor claimId terminal body s = (r, t)) :
    (Quiet s.store t.store ∧ r ≠ .ok true)
      ∨ ∃ record receipt,
        RecoverCommitted claimId terminal body record receipt s.store t.store
        ∧ r = .ok true := by
  simp only [recoverInterruptedV2Claim, getStore_bind] at h
  cases hfound : s.store.claims.get? claimId with
  | none =>
    simp only [hfound] at h
    cases h
    exact .inl ⟨.refl _, nofun⟩
  | some record =>
  simp only [hfound] at h
  split at h
  · split at h <;> cases h <;> exact .inl ⟨.refl _, nofun⟩
  rename_i hstate
  rcases readClockLocked_bind_cases h with ⟨⟨e, rfl⟩, rfl⟩ | ⟨hready, h⟩
  · exact .inl ⟨.refl _, nofun⟩
  have hquiet : Quiet s.store s.tick.store := .ticked hready
  split at h
  · cases h
    exact .inl ⟨hquiet, nofun⟩
  rename_i hlease
  rcases Operation.lift_bind_cases h with ⟨e, rfl, rfl⟩ | ⟨_, hpayload, h⟩
  · exact .inl ⟨hquiet, nofun⟩
  rcases Operation.lift_bind_cases h with ⟨e, rfl, rfl⟩ | ⟨receipt, hdecoded, h⟩
  · exact .inl ⟨hquiet, nofun⟩
  split at h
  · cases h
    exact .inl ⟨hquiet, nofun⟩
  rename_i houtcome
  have hundone := undone_commitTerminal false s.store.now record.claim.rateBatch claimId terminal
    body 0
  rcases changeLocked_bind_cases hundone h with ⟨⟨e, rfl⟩, hs⟩ | ⟨u, hu, h⟩
  · exact .inl ⟨hs ▸ hquiet, nofun⟩
  cases h
  refine .inr ⟨record, receipt, ?_, rfl⟩
  exact
    { ready := hready
      found := hfound
      evaluating := by cases hs : record.state <;> simp_all
      leaseExpired := not_lt.mp hlease
      payload := liftV2_eq_ok_iff.mp hpayload
      decoded := liftV2_eq_ok_iff.mp hdecoded
      decision := by
        by_contra hne
        exact houtcome (.inl hne)
      reason := by
        by_contra hne
        exact houtcome (.inr hne)
      state := by
        rw [hu]
        exact commitTerminalLocked_eq false hfound }

theorem loadV2InterruptedClaim_quiet {claimId : String} {s t : Anchored ω}
    {r : V2StoreResult V2InterruptedClaim} (h : loadV2InterruptedClaim claimId s = (r, t)) :
    Quiet s.store t.store := by
  simp only [loadV2InterruptedClaim, getStore_bind] at h
  cases hfound : s.store.claims.get? claimId with
  | none =>
    simp only [hfound] at h
    cases h
    exact .refl _
  | some record =>
  simp only [hfound] at h
  rcases readClockLocked_bind_cases h with ⟨-, rfl⟩ | ⟨hready, h⟩
  · exact .refl _
  split at h <;> cases h <;> exact .ticked hready

theorem loadV2CommittedClaim_quiet {claimId : String} {s t : Anchored ω}
    {r : V2StoreResult V2CommittedClaim} (h : loadV2CommittedClaim claimId s = (r, t)) :
    Quiet s.store t.store := by
  simp only [loadV2CommittedClaim, getStore_bind] at h
  cases hfound : s.store.claims.get? claimId with
  | none =>
    simp only [hfound] at h
    cases h
    exact .refl _
  | some record =>
  simp only [hfound] at h
  split at h
  · rcases readClockLocked_bind_cases h with ⟨-, rfl⟩ | ⟨hready, h⟩
    · exact .refl _
    split at h <;> cases h <;> exact .ticked hready
  · cases h
    exact .refl _

theorem loadV2TerminalClaim_quiet {claimId : String} {s t : Anchored ω}
    {r : V2StoreResult V2TerminalClaimRecord} (h : loadV2TerminalClaim P claimId s = (r, t)) :
    Quiet s.store t.store := by
  simp only [loadV2TerminalClaim, getStore_bind] at h
  cases hfound : s.store.claims.get? claimId with
  | none =>
    simp only [hfound] at h
    cases h
    exact .refl _
  | some record =>
    simp only [hfound] at h
    cases h
    exact .refl _

theorem getV2Acknowledgement_quiet {logId : String} {sequence : Int} {s t : Anchored ω}
    {r : V2StoreResult V2CheckpointAcknowledgement}
    (h : getV2Acknowledgement logId sequence s = (r, t)) : Quiet s.store t.store := by
  simp only [getV2Acknowledgement, getStore_bind] at h
  split at h
  · cases h
    exact .refl _
  · cases hack : (s.store.outbox[(sequence - 1).toNat]?).bind (·.ack) with
    | none =>
      simp only [hack] at h
      cases h
      exact .refl _
    | some ack =>
      simp only [hack] at h
      cases h
      exact .refl _

/-! ## Release records -/

/-- The first release record of a terminal claim was stored. -/
structure ReleaseRecorded (release : V2ReleaseRecord) (record : ClaimRecord)
    (s t : StoreState) : Prop where
  valid : validV2ReleaseRecordOutcome release.outcome release.reason = true
  found : s.claims.get? release.claimId = some record
  terminal : record.state = .terminal
  first : record.release = none
  state : t = { s with
    claims := s.claims.insert release.claimId { record with release := some release } }

/-- An identical record is already there. -/
def SameRelease (a b : V2ReleaseRecord) : Prop :=
  a.entryHash = b.entryHash ∧ a.ackTimestamp = b.ackTimestamp ∧ a.outcome = b.outcome
    ∧ a.reason = b.reason

theorem recordV2Release_cases {release : V2ReleaseRecord} {s t : Anchored ω}
    {r : V2StoreResult Unit} (h : recordV2Release anchor release s = (r, t)) :
    (t.store = s.store ∧ ∀ a, r = .ok a → ∃ record existing,
        s.store.claims.get? release.claimId = some record ∧ record.release = some existing
          ∧ SameRelease existing release)
      ∨ (∃ record, ReleaseRecorded release record s.store t.store) ∧ r = .ok () := by
  simp only [recordV2Release, getStore_bind] at h
  split at h
  · cases h
    exact .inl ⟨rfl, nofun⟩
  rename_i hvalid
  cases hfound : s.store.claims.get? release.claimId with
  | none =>
    simp only [hfound] at h
    cases h
    exact .inl ⟨rfl, nofun⟩
  | some record =>
  simp only [hfound] at h
  split at h
  · cases h
    exact .inl ⟨rfl, nofun⟩
  rename_i hterminal
  cases hfirst : record.release with
  | some existing =>
    simp only [hfirst] at h
    split at h
    · rename_i hsame
      cases h
      exact .inl ⟨rfl, fun _ _ => ⟨record, existing, rfl, hfirst, hsame⟩⟩
    · cases h
      exact .inl ⟨rfl, nofun⟩
  | none =>
  simp only [hfirst] at h
  have hundone : Undone fun s =>
      { s with claims := s.claims.modify release.claimId fun r =>
          { r with release := some release } } := fun _ => rfl
  rcases changeLocked_cases hundone h with ⟨⟨e, rfl⟩, hs⟩ | ⟨hr, hs⟩
  · exact .inl ⟨hs, nofun⟩
  · refine .inr ⟨⟨record, ?_⟩, hr⟩
    exact
      { valid := by simpa using hvalid
        found := hfound
        terminal := not_not.mp hterminal
        first := hfirst
        state := by rw [hs, OrderedMap.modify_of_get? hfound] }

/-! ## Acknowledgement -/

/-- The checkpoint took every appended entry up to the first that is not. -/
structure EntriesAcknowledged (s t : StoreState) : Prop where
  ready : ClockReady s
  unfrozen : s.checkpointFrozen = false
  state : t = { s.ticked with outbox := acknowledgeEntries s.logId s.now 1 s.outbox }

theorem acknowledgePendingLocked_cases {s t : Anchored ω} {r : V2StoreResult Unit}
    (h : acknowledgePendingLocked s = (r, t)) :
    r = .ok () ∧ (t.store = s.store ∨ EntriesAcknowledged s.store t.store) := by
  simp only [acknowledgePendingLocked, getStore_bind] at h
  split at h
  · cases h
    exact ⟨rfl, .inl rfl⟩
  rename_i hunfrozen
  split at h
  · rcases attempt_readClockLocked_bind_cases h with ⟨e, h⟩ | ⟨hready, h⟩
    · cases h
      exact ⟨rfl, .inl rfl⟩
    · cases h
      exact ⟨rfl, .inr ⟨hready, by simpa using hunfrozen, rfl⟩⟩
  · cases h
    exact ⟨rfl, .inl rfl⟩

/-- The checkpoint took the next appended entry. -/
structure EntryAcknowledged (logId : String) (sequence : Int) (entryHash : Bytes)
    (index : Nat) (e : OutboxEntry) (s t : StoreState) : Prop where
  ready : ClockReady s
  unfrozen : s.checkpointFrozen = false
  log : logId = s.logId
  position : sequence = (index : Int) + 1
  entry : s.outbox[index]? = some e
  appended : e.wire.isSome = true
  digest : e.digest = entryHash
  unacknowledged : e.ack = none
  link : (acknowledgedLink s index).isSome = true
  state : t = { s.ticked with
    outbox := s.outbox.modify index fun e =>
      { e with ack := some { logId, sequence, entryHash, timestamp := s.now } } }

/-- What an acknowledgement request that is not a new acknowledgement does: an
identical retry gets the original, a different entry hash at an acknowledged
sequence freezes the checkpoint. -/
inductive AcknowledgeOutcome (logId : String) (sequence : Int) (previous entryHash : Bytes)
    (s : StoreState) : StoreState → V2StoreResult V2CheckpointAcknowledgement → Prop
  | refused {e : V2StoreError} : AcknowledgeOutcome logId sequence previous entryHash s s (.error e)
  | fork {e : V2StoreError} {entry : OutboxEntry} {ack : V2CheckpointAcknowledgement}
      (log : logId = s.logId) (positive : 1 ≤ sequence)
      (found : s.outbox[(sequence - 1).toNat]? = some entry) (acked : entry.ack = some ack)
      (different : ack.entryHash ≠ entryHash) :
      AcknowledgeOutcome logId sequence previous entryHash s
        { s with checkpointFrozen := true } (.error e)
  | original {entry : OutboxEntry} {ack : V2CheckpointAcknowledgement}
      (log : logId = s.logId) (positive : 1 ≤ sequence)
      (found : s.outbox[(sequence - 1).toNat]? = some entry) (acked : entry.ack = some ack) :
      AcknowledgeOutcome logId sequence previous entryHash s s (.ok ack)
  | acknowledged {index : Nat} {entry : OutboxEntry} {t : StoreState}
      (new : EntryAcknowledged logId sequence entryHash index entry s t) :
      AcknowledgeOutcome logId sequence previous entryHash s t
        (.ok { logId, sequence, entryHash, timestamp := s.now })

theorem acknowledgeV2Receipt_cases {logId : String} {sequence : Int}
    {previous entryHash : Bytes} {s t : Anchored ω}
    {r : V2StoreResult V2CheckpointAcknowledgement}
    (h : acknowledgeV2Receipt logId sequence previous entryHash s = (r, t)) :
    AcknowledgeOutcome logId sequence previous entryHash s.store t.store r := by
  simp only [acknowledgeV2Receipt, getStore_bind] at h
  split at h
  · cases h
    exact .refused
  rename_i hrange
  have hlog : logId = s.store.logId := by
    by_contra hne
    exact hrange (.inl hne)
  have hpositive : 1 ≤ sequence := by
    by_contra hlt
    exact hrange (.inr (.inl (not_le.mp hlt)))
  cases hfound : s.store.outbox[(sequence - 1).toNat]? with
  | none =>
    simp only [hfound] at h
    cases h
    exact .refused
  | some entry =>
  simp only [hfound] at h
  cases hack : entry.ack with
  | some ack =>
    simp only [hack, Option.any_some, Option.isNone_some] at h
    split at h
    · rename_i hdifferent
      cases h
      exact .fork hlog hpositive hfound hack (by simpa using hdifferent)
    rw [if_neg (by simp)] at h
    split at h
    · cases h
      exact .refused
    split at h
    · cases h
      exact .refused
    · cases h
      exact .original hlog hpositive hfound hack
  | none =>
    simp only [hack, Option.any_none, Option.isNone_none] at h
    rw [if_neg (by simp)] at h
    split at h
    · cases h
      exact .refused
    rename_i hunfrozen
    split at h
    · cases h
      exact .refused
    rename_i happended
    split at h
    · cases h
      exact .refused
    rename_i hlink
    rcases readClockLocked_bind_cases h with ⟨⟨e, rfl⟩, rfl⟩ | ⟨hready, h⟩
    · exact .refused
    · cases h
      rw [not_or] at happended
      refine .acknowledged
        { ready := hready
          unfrozen := by simpa using hunfrozen
          log := hlog
          position := by omega
          entry := hfound
          appended := by simpa [Option.isSome_iff_ne_none] using happended.1
          digest := not_not.mp happended.2
          unacknowledged := hack
          link := by
            rw [not_not.mp hlink]
            rfl
          state := rfl }

/-! ## Publication -/

/-- A committed outbox body was signed and appended at its log position. -/
structure EntryAppended (P : Primitives) (claimId : String) (body : Bytes)
    (sign : V2ObjectType → Bytes → V2SignResult HybridSignature) (index : Nat)
    (receipt : VerificationReceiptV2) (wire digest : Bytes) (e : OutboxEntry)
    (s t : StoreState) : Prop where
  committed : committedIndex s claimId body = some index
  entry : s.outbox[index]? = some e
  pending : e.wire = none
  unfrozen : s.logFrozen = false
  next : 0 < index → (s.outbox[index - 1]?).any (·.wire.isNone) = false
  signed : signPreparedVerificationReceiptV2WithSigner P body (outboxHead s index)
    { publicKey := s.verifierKey, sign } = .ok receipt
  encoded : encodeVerificationReceiptV2 receipt = .ok wire
  hashed : verificationReceiptV2Digest P receipt = .ok digest
  state : t = { s with
    outbox := s.outbox.modify index fun e => { e with wire := some wire, digest } }

theorem committedIndex_eq_some {s : StoreState} {claimId : String} {body : Bytes} {index : Nat}
    (h : committedIndex s claimId body = some index) :
    ∃ record, s.claims.get? claimId = some record ∧ record.state = .terminal
      ∧ record.receiptBody = body ∧ record.outboxIndex = some index
      ∧ index < s.outbox.length := by
  simp only [committedIndex] at h
  split at h
  · simp at h
  rename_i record hfound
  split at h
  · rename_i hcommitted
    obtain ⟨hindex, hlt⟩ := Option.filter_eq_some_iff.mp h
    exact ⟨record, hfound, hcommitted.1, hcommitted.2, hindex, by simpa using hlt⟩
  · simp at h

/-- What a publication does: it answers with the receipt that is there, or it
appends one and hands the log to the checkpoint. -/
inductive PublishOutcome (P : Primitives) (claimId : String) (body : Bytes)
    (sign : V2ObjectType → Bytes → V2SignResult HybridSignature) (s : StoreState) :
    StoreState → V2StoreResult Bytes → Prop
  | refused {e : V2StoreError} : PublishOutcome P claimId body sign s s (.error e)
  | original {index : Nat} {entry : OutboxEntry} {wire : Bytes}
      (committed : committedIndex s claimId body = some index)
      (found : s.outbox[index]? = some entry) (appended : entry.wire = some wire) :
      PublishOutcome P claimId body sign s s (.ok wire)
  | appended {index : Nat} {receipt : VerificationReceiptV2} {wire digest : Bytes}
      {entry : OutboxEntry} {t u : StoreState}
      (new : EntryAppended P claimId body sign index receipt wire digest entry s t)
      (submitted : u = t ∨ EntriesAcknowledged t u) :
      PublishOutcome P claimId body sign s u (.ok wire)

theorem publishV2Receipt_cases {claimId : String} {body : Bytes}
    {sign : V2ObjectType → Bytes → V2SignResult HybridSignature} {s t : Anchored ω}
    {r : V2StoreResult Bytes} (h : publishV2Receipt P anchor claimId body sign s = (r, t)) :
    PublishOutcome P claimId body sign s.store t.store r := by
  simp only [publishV2Receipt, getStore_bind] at h
  cases hindex : committedIndex s.store claimId body with
  | none =>
    simp only [hindex] at h
    cases h
    exact .refused
  | some index =>
  simp only [hindex] at h
  obtain ⟨-, -, -, -, -, hlt⟩ := committedIndex_eq_some hindex
  have hentry : s.store.outbox[index]? = some s.store.outbox[index] :=
    List.getElem?_eq_getElem hlt
  cases hwire : s.store.outbox[index].wire with
  | some wire =>
    simp only [hentry, Option.bind_some, hwire] at h
    cases h
    exact .original hindex hentry hwire
  | none =>
  simp only [hentry, Option.bind_some, hwire] at h
  split at h
  · cases h
    exact .refused
  rename_i hunfrozen
  split at h
  · cases h
    exact .refused
  rename_i hnext
  split at h
  · cases h
    exact .refused
  cases hsigned : signPreparedVerificationReceiptV2WithSigner P body (outboxHead s.store index)
      { publicKey := s.store.verifierKey, sign } with
  | error e =>
    simp only [hsigned] at h
    cases h
    exact .refused
  | ok receipt =>
  simp only [hsigned] at h
  rcases Operation.lift_bind_cases h with ⟨e, rfl, rfl⟩ | ⟨wire, hencoded, h⟩
  · exact .refused
  rcases Operation.lift_bind_cases h with ⟨e, rfl, rfl⟩ | ⟨digest, hhashed, h⟩
  · exact .refused
  have hundone : Undone fun s =>
      { s with outbox := s.outbox.modify index fun e => { e with wire := some wire, digest } } :=
    fun _ => rfl
  rcases changeLocked_bind_cases hundone h with ⟨⟨e, rfl⟩, hs⟩ | ⟨u, hu, h⟩
  · rw [hs]
    exact .refused
  have happended : EntryAppended P claimId body sign index receipt wire digest
      s.store.outbox[index] s.store u.store :=
    { committed := hindex
      entry := hentry
      pending := hwire
      unfrozen := by simpa using hunfrozen
      next := fun hpos => by
        by_contra hany
        exact hnext ⟨hpos, by simpa using hany⟩
      signed := hsigned
      encoded := liftV2_eq_ok_iff.mp hencoded
      hashed := liftV2_eq_ok_iff.mp hhashed
      state := hu }
  simp only [getStore_bind] at h
  split at h
  · cases h
    exact .appended happended (.inl rfl)
  · rcases Operation.bind_cases h with ⟨e, he, -⟩ | ⟨_, v, hv, h⟩
    · exact absurd (acknowledgePendingLocked_cases he).1 (by simp)
    · cases h
      exact .appended happended (acknowledgePendingLocked_cases hv).2

/-! ## Settings and abandonment -/

theorem setAcknowledgementWithheld_cases {withheld : Bool} {s t : Anchored ω}
    {r : V2StoreResult Unit} (h : setAcknowledgementWithheld withheld s = (r, t)) :
    r = .ok () ∧ (t.store = { s.store with ackWithheld := withheld }
      ∨ EntriesAcknowledged { s.store with ackWithheld := withheld } t.store) := by
  simp only [setAcknowledgementWithheld, modifyStore_bind] at h
  split at h
  · cases h
    exact ⟨rfl, .inl rfl⟩
  · exact acknowledgePendingLocked_cases h

theorem abandonPendingReceipts_cases {s t : Anchored ω} {r : V2StoreResult (List String)}
    (h : abandonPendingReceipts anchor s = (r, t)) :
    (t.store = s.store ∧ r = .ok [])
      ∨ (t.store = abandonPending s.store ∧ r = .ok (pendingClaims s.store)) := by
  simp only [abandonPendingReceipts, getStore_bind] at h
  rw [Operation.bind_apply_ok (Operation.attempt_apply _ _)] at h
  rcases hchange : changeLocked anchor abandonPending s with ⟨r', u⟩
  rw [hchange] at h
  have hundone : Undone abandonPending := fun _ => rfl
  rcases changeLocked_cases hundone hchange with ⟨⟨e, rfl⟩, hs⟩ | ⟨rfl, hs⟩
  · cases h
    exact .inl ⟨hs, rfl⟩
  · cases h
    exact .inr ⟨hs, rfl⟩

end RatifyProtocol.V2
