import RatifyProtocol.V2.Reference.ReleaseTwins
set_option autoImplicit false

/-!
# Reference store: release once

However release calls are interleaved with each other and with other calls on the
store, what stands on record was recorded by a call that had its grounds, and a call
that returns released does so for what stands on record.
-/

namespace RatifyProtocol.V2

open Foundation

variable {ω : Type} {P : Primitives} {anchor : StoreAnchor ω}

/-! ## Released calls -/

/-- A released call: its receipt has the committed body of the claim, the entry hash and
the acknowledgement time are those on record, and a reading of the clock is inside
every deadline. -/
structure ReleasedOn (P : Primitives) (s : Releases ω) (n : Nat) (request : ReleaseRequest)
    (decision : V2ReleasedDecision) (r : ClaimRecord) (x : V2ReleaseRecord)
    (receipt : VerificationReceiptV2) (now : Int) : Prop where
  claim : s.shared.store.claims.get? request.committed.claimId = some r
  terminal : r.state = .terminal
  record : r.release = some x
  outcome : x.outcome = .released
  presented : request.signedReceipt = some decision.receiptWire
  decoded : decodeVerificationReceiptV2 decision.receiptWire = .ok receipt
  body : verificationReceiptV2Body receipt = .ok r.receiptBody
  entryHash : verificationReceiptV2Digest P receipt = .ok x.entryHash
  releaseTime : decision.releaseTime = x.ackTimestamp
  decided : decision.decision = receipt.decision
  reading : (.authoritativeTime, .ok (.time now)) ∈ s.log n
  finalized : r.finalizedAt ≤ x.ackTimestamp
  acknowledged : x.ackTimestamp ≤ now
  unexpired : now < r.claim.expiresAt
  inHorizon : receipt.decision = "allow" → now < r.allowHorizon

variable {s : Releases ω} {n : Nat} {request : ReleaseRequest}

/-- The grounds of a call hold of the store. -/
theorem ReleasesSound.grounds (h : ReleasesSound P s) {record : V2TerminalClaimRecord}
    {published : PublishedReceipt} {ack : V2CheckpointAcknowledgement}
    {log : List (StoreCall × V2StoreResult StoreReply)}
    (hgrounds : Grounds P request record published ack log) (hlog : ∀ e ∈ log, e ∈ s.log n) :
    (∃ r, s.shared.store.claims.get? request.committed.claimId = some r ∧ LoadedFrom P record r)
      ∧ (∀ x, record.release = some x →
        s.shared.store.release request.committed.claimId = some x)
      ∧ ∃ (i : Nat) (e : OutboxEntry), s.shared.store.outbox[i]? = some e ∧ e.ack = some ack := by
  obtain ⟨hterminal, hprior⟩ := (h.answers.answered _
    (Pool.mem_log_iff.mp (hlog _ hgrounds.loaded))).loaded _ _ rfl rfl
  exact ⟨hterminal hgrounds.state.terminal, hprior,
    (h.answers.answered _ (Pool.mem_log_iff.mp (hlog _ hgrounds.answered))).acknowledged _ _ _
      rfl rfl⟩

/-- The committed body of the handoff is the one the claim was committed with. -/
theorem LoadedFrom.body {record : V2TerminalClaimRecord} {r : ClaimRecord}
    (h : LoadedFrom P record r) (hstate : StateChecked P request record)
    (hinj : Set.InjOn P.sha384 (releaseTexts s))
    (hr : s.shared.store.claims.get? request.committed.claimId = some r)
    {p : StoreInteraction V2ReleaseResult} (hat : s.At n request p) :
    r.receiptBody = request.committed.receiptBody :=
  receiptOutboxDigestV2_injOn hinj (.inl ⟨_, r, hr, rfl⟩)
    (.inr (.inl ⟨n, request, p, hat, rfl⟩)) (h.digest.symm.trans hstate.digest)

/-- A call that returned released did so for what stands on record. -/
theorem ReleasesSound.released {labels : List (Action ReleaseRequest OtherCall)}
    {shared : Anchored ω} (h : ReleasesSound P s)
    (run : ReleaseRun P anchor (Pool.init shared) labels s)
    (hinj : Set.InjOn P.sha384 (releaseTexts s)) {result : V2ReleaseResult}
    (hat : s.At n request (.ret result)) (hstatus : result.status = .released) :
    ∃ decision r x receipt now, result.decision = some decision
      ∧ ReleasedOn P s n request decision r x receipt now := by
  obtain hidle | ⟨record, published, ack, before, rest, hsplit, -, hgrounds, hsettles⟩ :=
    releaseV2Decision_leads (Pool.leads run hat)
  · exact absurd hstatus (hidle.unreleased _ rfl)
  obtain ⟨hresult, ⟨now, hreading, hnone⟩, hrecorded⟩ := hsettles.released _ rfl hstatus
  have hbefore : ∀ e ∈ before, e ∈ s.log n := fun e he => hsplit ▸ List.mem_append_left _ he
  have hrest : ∀ e ∈ rest, e ∈ s.log n := fun e he => hsplit ▸ List.mem_append_right _ he
  obtain ⟨⟨r, hr, hloaded⟩, hprior, -⟩ := h.grounds hgrounds hbefore
  -- The record that stands is the one loaded, or the one this call recorded.
  have hrelease : ∃ x, s.shared.store.release request.committed.claimId = some x
      ∧ x.entryHash = published.entryHash ∧ x.ackTimestamp = ack.timestamp
      ∧ x.outcome = .released := by
    cases hx : record.release with
    | some x =>
      exact ⟨x, hprior x hx, hgrounds.receipt.prior x hx, hgrounds.acknowledged.prior x hx,
        (hgrounds.state.prior x hx).2.1⟩
    | none =>
      obtain ⟨reply, hmem⟩ := hrecorded hx
      have hstands := (h.answers.answered _ (Pool.mem_log_iff.mp (hrest _ hmem))).recorded
        _ _ rfl rfl
      exact ⟨_, hstands, rfl, rfl, rfl⟩
  obtain ⟨x, hx, hentry, htime, houtcome⟩ := hrelease
  obtain ⟨r', hr', hrelease⟩ := release_eq_some_iff.mp hx
  obtain rfl := Option.some.inj (hr.symm.trans hr')
  obtain ⟨hfinal, hack, hexpires, hhorizon⟩ := withheldAt_eq_none hnone
  have hbody := hloaded.body hgrounds.state hinj hr hat
  subst hresult
  refine ⟨_, r, x, published.receipt, now, rfl, ?_⟩
  exact
    { claim := hr, terminal := hloaded.terminal, record := hrelease, outcome := houtcome
      presented := hgrounds.receipt.presented, decoded := hgrounds.receipt.decoded
      body := by rw [hgrounds.receipt.body, hbody]
      entryHash := by rw [hgrounds.receipt.entryHash, hentry]
      releaseTime := htime.symm
      decided := rfl
      reading := hrest _ hreading
      finalized := by rw [← hloaded.finalized, htime]; exact hfinal
      acknowledged := by rw [htime]; exact hack
      unexpired := by rw [← hloaded.expires, hgrounds.state.expires]; exact hexpires
      inHorizon := fun hallow => by
        rw [← hloaded.horizon, hgrounds.state.horizon]
        exact hhorizon hallow }

/-- The published entry that a release record `x` is about: it has the body, the entry
hash and the acknowledgement time. -/
structure PublishedEntry (s : StoreState) (body : Bytes) (x : V2ReleaseRecord) (i : Nat)
    (e : OutboxEntry) : Prop where
  found : s.outbox[i]? = some e
  published : e.wire.isSome = true
  body : e.body = body
  digest : e.digest = x.entryHash
  acknowledged : e.ack.map (·.timestamp) = some x.ackTimestamp

/-- A release on record was recorded for a published entry with the body of the claim. -/
theorem ReleasesSound.releasedEntry {labels : List (Action ReleaseRequest OtherCall)}
    {shared : Anchored ω} (h : ReleasesSound P s)
    (run : ReleaseRun P anchor (Pool.init shared) labels s)
    (hinj : Set.InjOn P.sha384 (releaseTexts s)) {id : String} {r : ClaimRecord}
    {x : V2ReleaseRecord} (hr : s.shared.store.claims.get? id = some r)
    (hx : r.release = some x) (houtcome : x.outcome = .released) :
    ∃ (i : Nat) (e : OutboxEntry), PublishedEntry s.shared.store r.receiptBody x i e := by
  have hrelease : s.shared.store.release id = some x := release_eq_some_iff.mpr ⟨r, hr, hx⟩
  obtain rfl := h.answers.named id x hrelease
  obtain ⟨n, answer, hcall⟩ := h.answers.recorded _ x hrelease
  obtain ⟨⟨request, p⟩, hat⟩ : ∃ c, s.clients[n]? = some c :=
    ⟨_, List.getElem?_eq_getElem (Pool.client_lt run _ hcall)⟩
  have hmem : (.recordRelease x, answer) ∈ s.log n := Pool.mem_log_iff.mpr hcall
  obtain hidle | ⟨record, published, ack, before, rest, hsplit, hunrecorded, hgrounds, hsettles⟩ :=
    releaseV2Decision_leads (Pool.leads run hat)
  · exact absurd hmem (hidle.unrecorded x answer)
  rw [hsplit] at hmem
  have hrest : (.recordRelease x, answer) ∈ rest :=
    (List.mem_append.mp hmem).resolve_left (hunrecorded x answer)
  obtain ⟨-, hid, hrecord⟩ := hsettles.recorded x answer hrest
  obtain ⟨rfl, -⟩ := hrecord houtcome
  obtain ⟨⟨r', hr', hloaded⟩, -, i, e, he, hack⟩ := h.grounds (n := n) hgrounds
    fun e he => hsplit ▸ List.mem_append_left _ he
  obtain rfl : r = r' := by
    rw [hid] at hr
    exact Option.some.inj (hr.symm.trans hr')
  have hpublished := h.log.acknowledgedPublished i e he (by rw [hack]; rfl)
  obtain ⟨wire, hwire⟩ := Option.isSome_iff_exists.mp hpublished
  obtain ⟨receipt, hchained⟩ := h.log.chained i e wire he hwire
  obtain ⟨-, -, hdigest, -⟩ := h.log.named i e ack he hack
  have hentry : verificationReceiptV2Digest P receipt = .ok published.entryHash := by
    rw [hchained.digest, ← hdigest, hgrounds.acknowledged.entryHash]
  have hsame := verificationReceiptV2Body_of_digest hinj
    (fun t ht => .inr (.inr (.inl ⟨n, request, p, published.wire, published.receipt, hat,
      hgrounds.receipt.presented, hgrounds.receipt.decoded, ht⟩)))
    (fun t ht => .inr (.inr (.inr ⟨i, wire, receipt, by rw [wireAt, he]; exact hwire,
      decodeVerificationReceiptV2_encode hchained.encoded, ht⟩)))
    hgrounds.receipt.entryHash hentry
  refine ⟨i, e, ?_⟩
  exact
    { found := he, published := hpublished
      body := by
        rw [hloaded.body hgrounds.state hinj hr' hat]
        exact Except.ok.inj ((hchained.body.symm.trans hsame.symm).trans hgrounds.receipt.body)
      digest := hdigest.symm.trans hgrounds.acknowledged.entryHash
      acknowledged := by rw [hack]; rfl }

/-- A claim that is abandoned when a call loads it is not released by that call. -/
theorem ReleaseRun.unreleased_of_abandoned {shared : Anchored ω} {u : Releases ω}
    {after : List (Action ReleaseRequest OtherCall)}
    {labels : List (Action ReleaseRequest OtherCall)}
    (run : ReleaseRun P anchor (Pool.init shared) labels s)
    {next : V2StoreResult StoreReply → StoreInteraction V2ReleaseResult} {r : ClaimRecord}
    (hat : u.At n request (.call (.loadTerminal request.committed.claimId) next))
    (hr : u.shared.store.claims.get? request.committed.claimId = some r)
    (habandoned : r.abandoned = true)
    (later : ReleaseRun P anchor u (.advance n :: after) s)
    {result : V2ReleaseResult} (hresult : s.At n request (.ret result)) :
    result.status ≠ .released := by
  intro hstatus
  have hsplit : ReleaseRun P anchor u ([.advance n] ++ after) s := later
  obtain ⟨v, hfirst, hafter⟩ := Run.append_iff.mp hsplit
  have hone : ReleaseRun P anchor u ([] ++ [.advance n]) v := hfirst
  obtain ⟨w, hnil, hstep⟩ := Run.snoc_iff.mp hone
  obtain rfl := Run.nil_iff.mp hnil
  -- The load is answered with an abandoned claim.
  have hloaded : ∃ record, ⟨n, .loadTerminal request.committed.claimId,
      .ok (.terminalClaim record)⟩ ∈ v.history ∧ record.receiptAbandoned = true := by
    cases hstep with
    | @advance _ c i next' hat' =>
      obtain ⟨rfl, hcall⟩ := Prod.mk.inj (Option.some.inj (hat.symm.trans hat'))
      obtain ⟨rfl, rfl⟩ := Interaction.call.inj hcall
      obtain ⟨record, hload, hmarked⟩ := loadV2TerminalClaim_found (P := P) hr
      refine ⟨record, List.mem_append_right _ (List.mem_singleton.mpr ?_),
        hmarked.trans habandoned⟩
      simp only [releaseService, StoreCall.perform, Operation.reply_apply, hload]
      rfl
  obtain ⟨record, hmem, hmarked⟩ := hloaded
  have hlog : (.loadTerminal request.committed.claimId, .ok (.terminalClaim record)) ∈ s.log n :=
    Pool.mem_log_iff.mpr ((Pool.history_prefix hafter).subset hmem)
  have hleads := Pool.leads run hresult
  obtain hidle | ⟨record', published, ack, before, rest, hsplit, -, hgrounds, -⟩ :=
    releaseV2Decision_leads hleads
  · exact hidle.unreleased _ rfl hstatus
  have hloaded' : (.loadTerminal request.committed.claimId, .ok (.terminalClaim record'))
      ∈ s.log n := hsplit ▸ List.mem_append_left _ hgrounds.loaded
  have hsame := releaseV2Decision_load_unique hleads hlog hloaded'
  obtain rfl := StoreReply.terminalClaim.inj (Except.ok.inj hsame)
  rw [hgrounds.state.kept] at hmarked
  cases hmarked

/-! ## Release once -/

/-- What holds after every run of release calls and other calls from `start`. -/
structure ReleaseOnce (P : Primitives) (anchor : StoreAnchor ω) (start : Anchored ω)
    (labels : List (Action ReleaseRequest OtherCall)) (s : Releases ω) : Prop where
  permanent : ∀ before after u id x, labels = before ++ after →
    ReleaseRun P anchor (Pool.init start) before u → ReleaseRun P anchor u after s →
    u.shared.store.release id = some x → s.shared.store.release id = some x
  recordedOnce : ∀ m n x y a b, ⟨m, .recordRelease x, .ok a⟩ ∈ s.history →
    ⟨n, .recordRelease y, .ok b⟩ ∈ s.history → x.claimId = y.claimId → x = y
  withheld : ∀ before after u n request result x, labels = before ++ after →
    ReleaseRun P anchor (Pool.init start) before u → ReleaseRun P anchor u after s →
    u.shared.store.release request.committed.claimId = some x → x.outcome = .withheld →
    s.At n request (.ret result) → result.status ≠ .released
  abandonedAtLoad : ∀ before after u n request next r result,
    labels = before ++ .advance n :: after → ReleaseRun P anchor (Pool.init start) before u →
    u.At n request (.call (.loadTerminal request.committed.claimId) next) →
    u.shared.store.claims.get? request.committed.claimId = some r → r.abandoned = true →
    ReleaseRun P anchor u (.advance n :: after) s → s.At n request (.ret result) →
    result.status ≠ .released
  abandonedTwin : ∀ id r x, s.shared.store.claims.get? id = some r → r.abandoned = true →
    r.release = some x → x.outcome = .released →
    ∃ id' r', id' ≠ id ∧ s.shared.store.claims.get? id' = some r' ∧ r'.state = .terminal
      ∧ r'.receiptBody = r.receiptBody
  released : ∀ n request result, s.At n request (.ret result) → result.status = .released →
    ∃ decision r x receipt now, result.decision = some decision
      ∧ ReleasedOn P s n request decision r x receipt now

/-- Any number of release calls against one store, interleaved with each other and with
every other call, at whatever clock readings: a release record is never replaced and is
the same for every call that recorded one; a claim on record as withheld is released by
no call; a claim that is abandoned when it is loaded is not released, and one that is both
abandoned and on record as released has a twin with its receipt body; and every released
call is released on the record that stands. -/
theorem releaseV2Decision_once {now leaseSeconds : Int} {logId : String}
    {verifierKey : HybridPublicKey} {start : StoreState} {device : ω}
    {labels : List (Action ReleaseRequest OtherCall)}
    (hnew : StoreState.new P now leaseSeconds logId verifierKey = .ok start)
    (run : ReleaseRun P anchor (Pool.init { store := start, device }) labels s)
    (hinj : Set.InjOn P.sha384 (releaseTexts s)) :
    ReleaseOnce P anchor { store := start, device } labels s := by
  have hsound : ReleasesSound P s := ReleaseRun.sound (.initial hnew) run
  have hreleased := fun n request result (hat : s.At n request (.ret result)) hstatus =>
    hsound.released run hinj hat hstatus
  refine
    { permanent := fun before after u id x _ _ hafter hx => hafter.release_kept hx
      recordedOnce := ?_
      withheld := ?_
      abandonedAtLoad := fun before after u n request next r result _ _ hat hr habandoned hafter
        hresult => run.unreleased_of_abandoned hat hr habandoned hafter hresult
      abandonedTwin := ?_
      released := hreleased }
  · intro m n x y a b hx hy hid
    have hfirst := (hsound.answers.answered _ hx).recorded x a rfl rfl
    have hsecond := (hsound.answers.answered _ hy).recorded y b rfl rfl
    rw [hid, hsecond] at hfirst
    exact (Option.some.inj hfirst).symm
  · intro before after u n request result x _ _ hafter hx hwithheld hat hstatus
    obtain ⟨decision, r, y, receipt, now, -, hon⟩ := hreleased n request result hat hstatus
    have hy := release_eq_some_iff.mpr ⟨r, hon.claim, hon.record⟩
    obtain rfl := Option.some.inj (hy.symm.trans (hafter.release_kept hx))
    rw [hon.outcome] at hwithheld
    cases hwithheld
  · intro id r x hr habandoned hx houtcome
    obtain ⟨i, e, hentry⟩ := hsound.releasedEntry run hinj hr hx houtcome
    obtain ⟨r', hr'⟩ := hsound.log.committed i e hentry.found
    refine ⟨e.claimId, r', ?_, hr'.found, hr'.terminal, hr'.body.trans hentry.body⟩
    rintro rfl
    -- The entry of an abandoned claim is not published.
    obtain rfl := Option.some.inj (hr.symm.trans hr'.found)
    obtain ⟨-, -, hpending⟩ := hsound.abandoned _ r hr habandoned
    have hnone := hpending i hr'.position
    rw [wireAt, hentry.found, Option.bind_some] at hnone
    have hwire := hentry.published
    rw [hnone] at hwire
    cases hwire

/-- With a call that returns released. -/
theorem releaseV2Decision_once_twins :
    ∃ (P : Primitives) (labels : List (Action ReleaseRequest OtherCall)) (s : Releases Unit)
      (request : ReleaseRequest) (result : V2ReleaseResult),
      ReleaseOnce P none { store := firstStore, device := () } labels s
        ∧ s.At 0 request (.ret result) ∧ result.status = .released := by
  obtain ⟨P, before, after, u, s, request, r, x, result, h⟩ := exists_abandonedReleased
  exact ⟨P, before ++ after, s, request, result,
    releaseV2Decision_once h.new (h.first.append h.last) h.injective, h.returned, h.status⟩

/-- A claim can be abandoned with no outcome on record and be released after that. -/
theorem releaseV2Decision_abandoned :
    ∃ (P : Primitives) (before after : List (Action ReleaseRequest OtherCall)) (u s : Releases Unit)
      (request : ReleaseRequest) (r r' : ClaimRecord) (x : V2ReleaseRecord)
      (result : V2ReleaseResult),
      StoreState.new P 100 60 "00000000000000000000000000000000" (tabledKey 1) = .ok firstStore
        ∧ ReleaseRun P none (Pool.init { store := firstStore, device := () }) before u
        ∧ u.shared.store.claims.get? request.committed.claimId = some r
        ∧ r.abandoned = true ∧ r.release = none
        ∧ ReleaseRun P none u after s
        ∧ s.At 0 request (.ret result) ∧ result.status = .released
        ∧ s.shared.store.claims.get? request.committed.claimId = some r'
        ∧ r'.abandoned = true ∧ r'.release = some x ∧ x.outcome = .released
        ∧ Set.InjOn P.sha384 (releaseTexts s) := by
  obtain ⟨P, before, after, u, s, request, r, x, result, h⟩ := exists_abandonedReleased
  exact ⟨P, before, after, u, s, request, _, _, x, result, h.new, h.first, h.abandoned, rfl,
    h.unreleased, h.last, h.returned, h.status, h.released, rfl, rfl, h.outcome, h.injective⟩

end RatifyProtocol.V2
