import RatifyProtocol.V2.Reference.Drain
import RatifyProtocol.V2.Reference.ReleaseCalls
set_option autoImplicit false

/-!
# Reference store: a release overtaken by abandonment

A release call looks at the abandoned mark when it loads the claim, and not when it
records the outcome.  A claim abandoned in between is released all the same, if its
receipt was published for a twin: another claim with the same receipt body.
-/

namespace RatifyProtocol.V2

open Foundation

variable {ω : Type} {P : Primitives} {anchor : StoreAnchor ω}

/-! ## A release call whose steps all pass -/

/-- What a terminal claim is loaded as. -/
def loadedRecord (P : Primitives) (r : ClaimRecord) : V2TerminalClaimRecord where
  terminal := true
  receiptOutboxDigest := receiptOutboxDigestV2 P r.receiptBody
  challengeExpiresAt := r.claim.expiresAt
  allowHorizon := r.allowHorizon
  finalizedAt := r.finalizedAt
  receiptAbandoned := r.abandoned
  release := r.release

/-- The claim `r` passes every step of a release call in the store `s`, for the receipt
at the place `index` of the log. -/
structure ReadyToRelease (P : Primitives) (request : ReleaseRequest) (r : ClaimRecord)
    (published : PublishedReceipt) (ack : V2CheckpointAcknowledgement) (index : Nat)
    (s : StoreState) : Prop where
  preflight : releasePreflight request = .ok ()
  found : s.claims.get? request.committed.claimId = some r
  terminal : r.state = .terminal
  unreleased : r.release = none
  loaded : releaseLoaded P request (.ok (.terminalClaim (loadedRecord P r)))
    = .ok (loadedRecord P r, published)
  sequence : published.receipt.sequence = (index : Int) + 1
  log : published.receipt.logId = s.logId
  predecessor : 0 < index → ∃ previous, (s.outbox[index - 1]?).bind (·.ack) = some previous
    ∧ releasePredecessor published.receipt (.ok (.acknowledged previous)) = .ok ()
  entry : (s.outbox[index]?).bind (·.ack) = some ack
  acknowledged : releaseAcknowledged (loadedRecord P r) published (.ok (.acknowledged ack)) = .ok ack
  clock : ClockReady s
  inTime : withheldAt request.committed (loadedRecord P r) published.receipt ack.timestamp s.now
    = none

theorem perform_loadTerminal {id : String} {r : ClaimRecord} {s : Anchored ω}
    (hfound : s.store.claims.get? id = some r) (hterminal : r.state = .terminal) :
    (StoreCall.loadTerminal id).perform P anchor s
      = (.ok (.terminalClaim (loadedRecord P r)), s) := by
  simp only [StoreCall.perform, Operation.reply_apply, loadV2TerminalClaim, getStore_bind, hfound,
    hterminal, decide_true, ↓reduceIte]
  rfl

theorem perform_getAcknowledgement {s : Anchored ω} {ack : V2CheckpointAcknowledgement} {index : Nat}
    (hack : (s.store.outbox[index]?).bind (·.ack) = some ack) :
    (StoreCall.getAcknowledgement s.store.logId ((index : Int) + 1)).perform P anchor s
      = (.ok (.acknowledged ack), s) := by
  have hposition : ((index : Int) + 1 - 1).toNat = index := by omega
  have hrange : ¬ (s.store.logId ≠ s.store.logId ∨ (index : Int) + 1 < 1) := by
    simp only [ne_eq, not_true_eq_false, false_or]
    omega
  simp only [StoreCall.perform, Operation.reply_apply, getV2Acknowledgement, getStore_bind,
    hposition, hack, if_neg hrange]
  rfl

theorem perform_authoritativeTime {s : Anchored ω} (hclock : ClockReady s.store) :
    StoreCall.authoritativeTime.perform P anchor s = (.ok (.time s.store.now), s.tick) := by
  simp only [StoreCall.perform, Operation.reply_apply, hclock.readClockLocked]
  rfl

/-- The store with `x` on record. -/
def releaseRecorded (x : V2ReleaseRecord) (s : StoreState) : StoreState :=
  { s with claims := s.claims.modify x.claimId fun r => { r with release := some x } }

theorem get?_releaseRecorded_of_ne {x : V2ReleaseRecord} {s : StoreState} {id : String}
    (h : id ≠ x.claimId) : (releaseRecorded x s).claims.get? id = s.claims.get? id := by
  rw [releaseRecorded, OrderedMap.get?_modify, if_neg h]

/-- The first record of a terminal claim is accepted. -/
theorem perform_recordRelease {x : V2ReleaseRecord} {r : ClaimRecord} {s : Anchored ω}
    (haccepts : AnchorAccepts anchor)
    (hvalid : validV2ReleaseRecordOutcome x.outcome x.reason = true)
    (hfound : s.store.claims.get? x.claimId = some r) (hterminal : r.state = .terminal)
    (hfirst : r.release = none) :
    ∃ t : Anchored ω, (StoreCall.recordRelease x).perform P anchor s = (.ok .releaseRecorded, t)
      ∧ t.store = releaseRecorded x s.store := by
  obtain ⟨device, hchange⟩ := haccepts.changeLocked (releaseRecorded x) s
  have hrecord : recordV2Release anchor x s
      = (.ok (), { store := releaseRecorded x s.store, device }) := by
    simp only [recordV2Release, getStore_bind, hvalid, hfound, hterminal, hfirst, Bool.not_true,
      Bool.false_eq_true, ne_eq, not_true_eq_false, ↓reduceIte]
    exact hchange
  refine ⟨{ store := releaseRecorded x s.store, device }, ?_, rfl⟩
  simp only [StoreCall.perform, Operation.reply_apply, hrecord]
  rfl

theorem perform_abandonPendingReceipts (haccepts : AnchorAccepts anchor) (s : Anchored ω) :
    ∃ t : Anchored ω, (StoreCall.abandonPendingReceipts.perform P anchor s).2 = t
      ∧ t.store = abandonPending s.store := by
  obtain ⟨device, hchange⟩ := haccepts.changeLocked abandonPending s
  refine ⟨{ store := abandonPending s.store, device }, ?_, rfl⟩
  simp only [StoreCall.perform, Operation.reply_apply, V2.abandonPendingReceipts, getStore_bind]
  rw [Operation.bind_apply_ok (Operation.attempt_apply _ _), hchange]
  rfl

/-- Abandonment as a call between release calls. -/
def abandonCall : OtherCall where
  val := .abandonPendingReceipts
  property := fun _ h => StoreCall.noConfusion h

/-- The last call of a pool goes on with the answer to its next step. -/
theorem ReleaseRun.advance (P : Primitives) (anchor : StoreAnchor ω) {u : Releases ω}
    {before : List (ReleaseRequest × StoreInteraction V2ReleaseResult)}
    {request : ReleaseRequest} {i : StoreCall}
    {next : V2StoreResult StoreReply → StoreInteraction V2ReleaseResult}
    {q : StoreInteraction V2ReleaseResult} {answer : V2StoreResult StoreReply} {t : Anchored ω}
    (hclients : u.clients = before ++ [(request, .call i next)])
    (hperform : i.perform P anchor u.shared = (answer, t)) (hnext : next answer = q) :
    ∃ v : Releases ω, Pool.Step (releaseService P anchor) u (.advance before.length) v
      ∧ v.shared = t ∧ v.clients = before ++ [(request, q)] := by
  have hat : u.At before.length request (.call i next) := by
    rw [Pool.At, hclients, List.getElem?_concat_length]
  have hanswer : (releaseService P anchor).perform u.shared i = (t, answer) :=
    congrArg (fun x => (x.2, x.1)) hperform
  refine ⟨_, Pool.Step.advance_to hat hanswer hnext, rfl, ?_⟩
  rw [hclients, List.set_append_right _ _ (le_refl _), Nat.sub_self, List.set_cons_zero]

/-- An outcome that is not on record is recorded, and then the call ends. -/
theorem recordOutcome_first (record : V2TerminalClaimRecord) (x : V2ReleaseRecord)
    (result unavailable : V2ReleaseResult) (hfirst : record.release = none) :
    ∃ next, recordOutcome record x result unavailable = .call (.recordRelease x) next
      ∧ ∀ reply, next (.ok reply) = .ret result := by
  simp only [recordOutcome, hfirst]
  exact ⟨_, rfl, fun _ => rfl⟩

namespace ReadyToRelease

variable {request : ReleaseRequest} {r : ClaimRecord} {published : PublishedReceipt}
  {ack : V2CheckpointAcknowledgement} {index : Nat} {s : StoreState}

theorem program (h : ReadyToRelease P request r published ack index s) :
    releaseV2Decision P request = .call (.loadTerminal request.committed.claimId) fun answer =>
      .orElse (releaseLoaded P request answer) fun loaded =>
        releasePublished request.committed loaded.1 loaded.2 := by
  simp only [releaseV2Decision, h.preflight, Interaction.orElse]

/-- A call starts and loads its claim. -/
theorem loads (anchor : StoreAnchor ω) {u : Releases ω}
    (h : ReadyToRelease P request r published ack index u.shared.store) :
    ∃ v : Releases ω, ReleaseRun P anchor u [.start request, .advance u.clients.length] v
      ∧ v.shared = u.shared
      ∧ v.clients = u.clients
        ++ [(request, releasePublished request.committed (loadedRecord P r) published)] := by
  have hstart : ReleaseRun P anchor u [.start request]
      { u with clients := u.clients ++ [(request, releaseV2Decision P request)] } :=
    Run.single (.start _ request)
  have hloaded : (Interaction.orElse (releaseLoaded P request
      (.ok (.terminalClaim (loadedRecord P r)))) fun loaded =>
        releasePublished request.committed loaded.1 loaded.2)
      = releasePublished request.committed (loadedRecord P r) published := by
    simp only [h.loaded, Interaction.orElse]
  obtain ⟨v, hload, hv, hclients⟩ := ReleaseRun.advance P anchor
    (u := { u with clients := u.clients ++ [(request, releaseV2Decision P request)] })
    (by rw [h.program]) (perform_loadTerminal h.found h.terminal) hloaded
  exact ⟨v, hstart.snoc hload, hv, hclients⟩

/-- The entry at the head of the log has no predecessor. -/
theorem published_first (h : ReadyToRelease P request r published ack 0 s) :
    releasePublished request.committed (loadedRecord P r) published
      = releaseAcknowledgement request.committed (loadedRecord P r) published := by
  have hfirst : ¬ published.receipt.sequence > 1 := by simp [h.sequence]
  rw [releasePublished, if_neg hfirst]

/-- A call comes to the acknowledgement of its entry. -/
theorem arrives (anchor : StoreAnchor ω) {u : Releases ω}
    (h : ReadyToRelease P request r published ack index u.shared.store) :
    ∃ labels, ∃ v : Releases ω, ReleaseRun P anchor u labels v ∧ v.shared = u.shared
      ∧ v.clients = u.clients
        ++ [(request, releaseAcknowledgement request.committed (loadedRecord P r) published)] := by
  obtain ⟨v, hload, hv, hclients⟩ := h.loads anchor
  by_cases hindex : index = 0
  · subst hindex
    rw [h.published_first] at hclients
    exact ⟨_, v, hload, hv, hclients⟩
  obtain ⟨previous, hprevious, hchecked⟩ := h.predecessor (by omega)
  have hplace : published.receipt.sequence - 1 = ((index - 1 : Nat) : Int) + 1 := by
    rw [h.sequence]
    omega
  have hlater : published.receipt.sequence > 1 := by
    rw [h.sequence]
    omega
  have hlog : published.receipt.logId = v.shared.store.logId := by rw [hv, h.log]
  rw [releasePublished, if_pos hlater, hplace, hlog] at hclients
  have hnext : (Interaction.orElse (releasePredecessor published.receipt
      (.ok (.acknowledged previous))) fun _ =>
        releaseAcknowledgement request.committed (loadedRecord P r) published)
      = releaseAcknowledgement request.committed (loadedRecord P r) published := by
    simp only [hchecked, Interaction.orElse]
  obtain ⟨w, hask, hw, hclients⟩ := ReleaseRun.advance P anchor hclients
    (perform_getAcknowledgement (by rw [hv]; exact hprevious)) hnext
  exact ⟨_, w, hload.snoc hask, hw.trans hv, hclients⟩

theorem releaseClock_eq (h : ReadyToRelease P request r published ack index s) :
    releaseClock request.committed (loadedRecord P r) published.receipt ack.timestamp
      (.ok (.time s.now)) = .ok none := by
  have hvalid : validV2Timestamp s.now = true := by
    simp [validV2Timestamp, h.clock.nonneg, h.clock.bounded]
  have hreading : readV2AuthoritativeTime (replyOf StoreReply.time? (.ok (.time s.now)))
      = .ok s.now := by
    simp only [readV2AuthoritativeTime, replyOf, StoreReply.time?, ok_bind, hvalid, if_true]
  simp only [releaseClock, hreading, h.inTime]

/-- After the acknowledgement it reads the clock and then records the release. -/
theorem afterAcknowledgement (h : ReadyToRelease P request r published ack index s) :
    ∃ next last,
      Interaction.orElse (releaseAcknowledged (loadedRecord P r) published
          (.ok (.acknowledged ack))) (releaseAtTime request.committed (loadedRecord P r) published)
        = .call .authoritativeTime next
      ∧ next (.ok (.time s.now))
        = .call (.recordRelease (releasedRecord request.committed published ack)) last
      ∧ last (.ok .releaseRecorded)
        = .ret (releasedResult request.committed published ack.timestamp) := by
  obtain ⟨last, hlast, hreleased⟩ := recordOutcome_first (loadedRecord P r)
    (releasedRecord request.committed published ack)
    (releasedResult request.committed published ack.timestamp)
    (releaseResultV2 .pending "claim_store_unavailable") h.unreleased
  simp only [h.acknowledged, Interaction.orElse, releaseAtTime]
  refine ⟨_, last, rfl, ?_, hreleased _⟩
  simp only [h.releaseClock_eq]
  exact hlast

/-- From the acknowledgement of its entry a call goes on to its end, in any store that has
the claim terminal, with no outcome on record, and the entry and the reading of `s`. -/
theorem finishes (haccepts : AnchorAccepts anchor)
    (h : ReadyToRelease P request r published ack index s) {u : Releases ω}
    {before : List (ReleaseRequest × StoreInteraction V2ReleaseResult)} {r' : ClaimRecord}
    (hclients : u.clients = before
      ++ [(request, releaseAcknowledgement request.committed (loadedRecord P r) published)])
    (hlog : u.shared.store.logId = s.logId)
    (hentry : (u.shared.store.outbox[index]?).bind (·.ack) = some ack)
    (hnow : u.shared.store.now = s.now) (hready : ClockReady u.shared.store)
    (hfound : u.shared.store.claims.get? request.committed.claimId = some r')
    (hterminal : r'.state = .terminal) (hfirst : r'.release = none) :
    ∃ t : Releases ω, ReleaseRun P anchor u
        [.advance before.length, .advance before.length, .advance before.length] t
      ∧ t.clients = before
        ++ [(request, .ret (releasedResult request.committed published ack.timestamp))]
      ∧ t.shared.store = releaseRecorded (releasedRecord request.committed published ack)
          u.shared.store.ticked := by
  obtain ⟨next, last, hacknowledged, hdecided, hreleased⟩ := h.afterAcknowledgement
  rw [releaseAcknowledgement, h.sequence, h.log, ← hlog] at hclients
  rw [← hnow] at hdecided
  obtain ⟨v, hacknowledge, hv, hclients⟩ := ReleaseRun.advance P anchor hclients
    (perform_getAcknowledgement hentry) hacknowledged
  obtain ⟨w, htime, hw, hclients⟩ := ReleaseRun.advance P anchor hclients
    (by rw [hv]; exact perform_authoritativeTime hready) hdecided
  obtain ⟨b, hrecord, hb⟩ := perform_recordRelease (P := P) haccepts (s := w.shared)
    (x := releasedRecord request.committed published ack) (r := r') rfl
    (by rw [hw]; exact hfound) hterminal hfirst
  obtain ⟨t, hlast, ht, hclients⟩ := ReleaseRun.advance P anchor hclients hrecord hreleased
  refine ⟨t, ((Run.single hacknowledge).snoc htime).snoc hlast, hclients, ?_⟩
  rw [ht, hb, hw]
  rfl

/-- A call that is left alone releases its claim. -/
theorem releases (haccepts : AnchorAccepts anchor) {u : Releases ω}
    (h : ReadyToRelease P request r published ack index u.shared.store) :
    ∃ labels, ∃ t : Releases ω, ReleaseRun P anchor u labels t
      ∧ t.clients = u.clients
        ++ [(request, .ret (releasedResult request.committed published ack.timestamp))]
      ∧ t.shared.store = releaseRecorded (releasedRecord request.committed published ack)
          u.shared.store.ticked := by
  obtain ⟨labels, v, harrives, hv, hclients⟩ := h.arrives anchor
  obtain ⟨t, hfinishes, hreleased, hstore⟩ := h.finishes haccepts hclients (by rw [hv])
    (by rw [hv]; exact h.entry) (by rw [hv]) (by rw [hv]; exact h.clock)
    (by rw [hv]; exact h.found) h.terminal h.unreleased
  exact ⟨_, t, harrives.append hfinishes, hreleased, by rw [hstore, hv]⟩

/-- A call that has loaded its claim releases it, although the claim is abandoned before
the outcome is recorded. -/
theorem overtaken (haccepts : AnchorAccepts anchor) {s : Anchored ω}
    (h : ReadyToRelease P request r published ack 0 s.store)
    (hpending : request.committed.claimId ∈ pendingClaims s.store) :
    ∃ u t : Releases ω, ReleaseRun P anchor (Pool.init s)
        [.start request, .advance 0, .outside abandonCall] u
      ∧ u.shared.store.claims.get? request.committed.claimId = some { r with abandoned := true }
      ∧ ReleaseRun P anchor u [.advance 0, .advance 0, .advance 0] t
      ∧ t.clients = [(request, .ret (releasedResult request.committed published ack.timestamp))]
      ∧ t.shared.store.claims.get? request.committed.claimId = some { r with
          abandoned := true
          release := some (releasedRecord request.committed published ack) }
      ∧ t.shared.store
        = releaseRecorded (releasedRecord request.committed published ack)
            (abandonPending s.store).ticked := by
  -- The call loads its claim; then the claim is abandoned.
  obtain ⟨u, hload, hu, hclients⟩ := @loads ω P request r published ack 0 anchor (Pool.init s) h
  rw [h.published_first] at hclients
  obtain ⟨a, habandon, ha⟩ := perform_abandonPendingReceipts (P := P) haccepts s
  have houtside : Pool.Step (releaseService P anchor) u (.outside abandonCall)
      { u with shared := a } := by
    have hstep := Pool.Step.outside (S := releaseService P anchor) u abandonCall
    rw [hu] at hstep
    exact habandon ▸ hstep
  have hfound : a.store.claims.get? request.committed.claimId
      = some { r with abandoned := true } := by
    rw [ha, get?_abandonPending, h.found, Option.map_some, markAbandoned, if_pos hpending]
  -- It goes on to the end.
  have hready : ClockReady a.store := by
    rw [ha]
    exact ⟨h.clock.notRegressed, h.clock.nonneg, h.clock.bounded⟩
  obtain ⟨t, hfinishes, hclients, hstore⟩ := h.finishes haccepts (u := { u with shared := a })
    hclients (by rw [ha]; rfl) (by rw [ha]; exact h.entry) (by rw [ha]; rfl) hready hfound h.terminal
    h.unreleased
  rw [ha] at hstore
  refine ⟨_, t, hload.snoc houtside, hfound, hfinishes, hclients, ?_, hstore⟩
  have hmarked : (abandonPending s.store).ticked.claims.get? request.committed.claimId
      = some { r with abandoned := true } := ha ▸ hfound
  rw [hstore, releaseRecorded, OrderedMap.get?_modify]
  simp only [releasedRecord, hmarked, if_true, Option.map_some]

end ReadyToRelease

/-! ## What is handed to a release call -/

/-- The handoff of a committed claim, with a published receipt, to a caller that trusts the
key and the log of the first store. -/
def handoff (claim : V2ChallengeClaim) (body wire : Bytes) (horizon : Int) : ReleaseRequest where
  committed := .new claim body horizon
  signedReceipt := some wire
  config := { verifierPublicKey := tabledKey 1, logId := firstStore.logId }

theorem releasePreflight_handoff {claim : V2ChallengeClaim} {body wire : Bytes} {horizon : Int}
    {receipt : VerificationReceiptV2} (hnamed : claim.claimId ≠ "")
    (hbody : verificationReceiptV2Body receipt = .ok body) :
    releasePreflight (handoff claim body wire horizon) = .ok () := by
  have hbody_ne : body ≠ [] :=
    canonical_obj_ne_nil (verificationReceiptV2Body_eq_ok_iff.mp hbody).2.2
  have hlog : ((utf8 firstStore.logId).length != 32 || !lowerHex firstStore.logId) = false := by
    decide
  simp only [releasePreflight, handoff, CommittedV2Outcome.new, hlog, stopIf_bind_iff,
    stopIf_eq_ok_iff, Bool.or_eq_false_iff, beq_eq_false_iff_ne, and_true]
  exact ⟨hnamed, List.isEmpty_eq_false_iff.mpr hbody_ne⟩

/-- A terminal claim and a receipt with its body pass the checks of the load. -/
theorem releaseLoaded_handoff {table : List Bytes} {claim : V2ChallengeClaim}
    {owner terminal body wire digest : Bytes} {lease claimedAt horizon finalAt : Int} {index : Nat}
    {receipt : VerificationReceiptV2} (hown : claim.verifierId = hexEncode (1 :: List.replicate 31 0))
    (hissued : receipt.verifierId = claim.verifierId) (hlogged : receipt.logId = firstStore.logId)
    (hsigned : receipt.signature = tabledSignature)
    (hbody : verificationReceiptV2Body receipt = .ok body)
    (hwire : encodeVerificationReceiptV2 receipt = .ok wire)
    (hdigest : verificationReceiptV2Digest (counting table) receipt = .ok digest) :
    releaseLoaded (counting table) (handoff claim body wire horizon)
      (.ok (.terminalClaim (loadedRecord (counting table)
        ((newClaimRecord claim owner lease claimedAt).commit terminal body horizon finalAt index))))
      = .ok (loadedRecord (counting table)
          ((newClaimRecord claim owner lease claimedAt).commit terminal body horizon finalAt index),
        { wire, receipt, entryHash := digest }) := by
  have hwire_ne : wire ≠ [] :=
    canonical_obj_ne_nil (encodeVerificationReceiptV2_eq_ok_iff.mp hwire).2.2.2.1
  obtain ⟨-, signable, hsignable, -⟩ := verificationReceiptV2Digest_eq_ok_iff.mp hdigest
  have hverify := (accepting_counting table).verify .verificationReceipt signable 1
  generalize hrecord : loadedRecord (counting table)
    ((newClaimRecord claim owner lease claimedAt).commit terminal body horizon finalAt index) = record
  have hstate : releaseState (counting table) (handoff claim body wire horizon) record = .ok () := by
    have hid : (keyIdV2 (counting table)
        (handoff claim body wire horizon).config.verifierPublicKey).toOption
        = some (handoff claim body wire horizon).committed.verifierId :=
      congrArg Except.toOption (((accepting_counting table).keyIdV2 1).trans
        (congrArg Except.ok hown.symm))
    subst hrecord
    simp only [releaseState, hid, stopIf_bind_iff, Bool.or_eq_false_iff, bne_self_eq_false,
      and_true]
    exact ⟨rfl, ⟨⟨⟨rfl, bne_self_eq_false _⟩, bne_self_eq_false _⟩, bne_self_eq_false _⟩, rfl⟩
  have hreceipt : releaseReceipt (counting table) (handoff claim body wire horizon) record
      = .ok { wire, receipt, entryHash := digest } := by
    have hpresented : ((handoff claim body wire horizon).signedReceipt.filter
        fun wire => !wire.isEmpty) = some wire :=
      Option.filter_eq_some_iff.mpr ⟨rfl, by simp [List.isEmpty_eq_false_iff.mpr hwire_ne]⟩
    have hlog : ¬ receipt.logId ≠ (handoff claim body wire horizon).config.logId :=
      not_not.mpr hlogged
    have hverified : verifyPublishedV2Receipt (counting table) wire
        (handoff claim body wire horizon).config = .ok receipt := by
      rw [verifyPublishedV2Receipt, decodeVerificationReceiptV2_encode hwire, ok_bind, if_neg hlog,
        hsignable, ok_bind]
      refine bind_eq_ok_unit_iff.mpr ⟨?_, rfl⟩
      rw [hsigned]
      exact hverify
    unfold releaseReceipt
    rw [hpresented]
    simp only [okOr_bind_iff, stopIf_bind_iff]
    refine ⟨receipt, hverified, ?_, body, hbody, bne_self_eq_false _, digest, hdigest, ?_, rfl⟩
    · rw [hissued]
      exact bne_self_eq_false _
    · subst hrecord
      rfl
  simp only [releaseLoaded, releaseLoad, replyOf, StoreReply.terminalClaim?, ok_bind, hstate,
    hreceipt]

/-- The acknowledgement of the entry at a place of the first store's log. -/
def entryAcknowledgement (index : Nat) (digest : Bytes) (timestamp : Int) :
    V2CheckpointAcknowledgement :=
  { logId := firstStore.logId, sequence := (index : Int) + 1, entryHash := digest, timestamp }

theorem releaseAcknowledged_entry {record : V2TerminalClaimRecord} {published : PublishedReceipt}
    {index : Nat} {timestamp : Int} (hlog : published.receipt.logId = firstStore.logId)
    (hsequence : published.receipt.sequence = (index : Int) + 1) (hfirst : record.release = none) :
    releaseAcknowledged record published
        (.ok (.acknowledged (entryAcknowledgement index published.entryHash timestamp)))
      = .ok (entryAcknowledgement index published.entryHash timestamp) := by
  simp only [releaseAcknowledged, okOr_bind_iff, stopIf_bind_iff, Bool.or_eq_false_iff, hlog,
    hsequence, hfirst]
  exact ⟨_, rfl, ⟨⟨bne_self_eq_false _, bne_self_eq_false _⟩, bne_self_eq_false _⟩, rfl, rfl⟩

/-! ## The bodies and wires of a store -/

/-- Every claim of the store has a receipt body of `bodies`. -/
def BodiesIn (bodies : List Bytes) (s : StoreState) : Prop :=
  ∀ id r, s.claims.get? id = some r → r.receiptBody ∈ bodies

theorem BodiesIn.abandonPending {bodies : List Bytes} {s : StoreState} (h : BodiesIn bodies s) :
    BodiesIn bodies (abandonPending s) := by
  intro id r hr
  rw [get?_abandonPending] at hr
  obtain ⟨r₀, hr₀, rfl⟩ := Option.map_eq_some_iff.mp hr
  have hbody : (markAbandoned (pendingClaims s) id r₀).receiptBody = r₀.receiptBody := by
    rw [markAbandoned]
    split <;> rfl
  rw [hbody]
  exact h id r₀ hr₀

theorem BodiesIn.releaseRecorded {bodies : List Bytes} {s : StoreState} (h : BodiesIn bodies s)
    (x : V2ReleaseRecord) : BodiesIn bodies (releaseRecorded x s) := by
  intro id r hr
  rw [V2.releaseRecorded, OrderedMap.get?_modify] at hr
  split at hr
  · obtain ⟨r₀, hr₀, rfl⟩ := Option.map_eq_some_iff.mp hr
    exact h _ r₀ hr₀
  · exact h id r hr

/-- Two claims are put into a store that has no other. -/
theorem bodiesIn_insert_both (claims : OrderedMap String ClaimRecord) {bodies : List Bytes}
    {s : StoreState} {id id' : String} {r r' : ClaimRecord}
    (hclaims : s.claims = (claims.insert id r).insert id' r')
    (hothers : ∀ key, key ≠ id → key ≠ id' → claims.get? key = none) (hr : r.receiptBody ∈ bodies)
    (hr' : r'.receiptBody ∈ bodies) : BodiesIn bodies s := by
  intro key record hrecord
  rw [hclaims, OrderedMap.get?_insert] at hrecord
  split at hrecord
  case isTrue =>
    obtain rfl := Option.some.inj hrecord
    exact hr'
  case isFalse hid' =>
    rw [OrderedMap.get?_insert] at hrecord
    split at hrecord
    case isTrue =>
      obtain rfl := Option.some.inj hrecord
      exact hr
    case isFalse hid =>
      rw [hothers key hid hid'] at hrecord
      cases hrecord

/-- The texts of a pool are those of the bodies and the wire forms that occur in it. -/
theorem releaseTexts_subset {s : Releases ω} {bodies : List Bytes} (wires : List Bytes)
    {texts : List Bytes}
    (hclaims : BodiesIn bodies s.shared.store)
    (hclients : ∀ c ∈ s.clients, c.1.committed.receiptBody ∈ bodies
      ∧ ∃ wire ∈ wires, c.1.signedReceipt = some wire)
    (hlog : ∀ i wire, wireAt s.shared.store i = some wire → wire ∈ wires)
    (hbodies : ∀ body ∈ bodies, outboxText body ∈ texts)
    (hwires : ∀ wire ∈ wires, ∃ receipt signable, decodeVerificationReceiptV2 wire = .ok receipt
      ∧ verificationReceiptV2SignableBytes receipt = .ok signable
      ∧ statementBodyText 8 signable ∈ texts) :
    releaseTexts s ⊆ {t | t ∈ texts} := by
  have hentry : ∀ wire ∈ wires, ∀ receipt, decodeVerificationReceiptV2 wire = .ok receipt →
      ∀ t ∈ entryTexts receipt, t ∈ texts := by
    rintro wire hwire receipt hdecoded t ⟨b, hb, rfl⟩
    obtain ⟨receipt', signable, hdecoded', hsignable, hmem⟩ := hwires wire hwire
    obtain rfl := Except.ok.inj (hdecoded.symm.trans hdecoded')
    obtain rfl := Except.ok.inj (hsignable.symm.trans hb)
    exact hmem
  have hclient : ∀ n request p, s.At n request p → request.committed.receiptBody ∈ bodies
      ∧ ∃ wire ∈ wires, request.signedReceipt = some wire :=
    fun n request p hat => hclients _ (List.mem_of_getElem? hat)
  rintro t (⟨id, r, hr, rfl⟩ | ⟨n, request, q, hat, rfl⟩
    | ⟨n, request, q, wire, receipt, hat, hpresented, hdecoded, ht⟩
    | ⟨i, wire, receipt, hw, hdecoded, ht⟩)
  · exact hbodies _ (hclaims id r hr)
  · exact hbodies _ (hclient n request q hat).1
  · obtain ⟨-, wire', hmem, hpresented'⟩ := hclient n request q hat
    obtain rfl := Option.some.inj (hpresented.symm.trans hpresented')
    exact hentry _ hmem receipt hdecoded t ht
  · exact hentry wire (hlog i wire hw) receipt hdecoded t ht

/-! ## Twins -/

/-- What happens to the store before any release call. -/
theorem ReleaseRun.before {s t u : Anchored ω} {labels : List (Action ReleaseRequest OtherCall)}
    (run : ReleaseRun P anchor (Pool.init s) labels (Pool.init t)) {call : StoreCall}
    {reply : V2StoreResult StoreReply} (hother : ∀ x, call ≠ .recordRelease x)
    (h : Performs P anchor t (call, reply) u) :
    ReleaseRun P anchor (Pool.init s) (labels ++ [.outside ⟨call, hother⟩]) (Pool.init u) := by
  have hstep := Pool.Step.outside (S := releaseService P anchor) (Pool.init t) ⟨call, hother⟩
  have hshared : (releaseService P anchor).outside t ⟨call, hother⟩ = u := (Prod.mk.inj h).2
  exact run.snoc (hshared ▸ hstep)

/-- Two claims of one verifier that differ in their replay epoch, after their leases. -/
def twinClaims : StoreState :=
  { firstStore with
    now := 160
    ackWithheld := true
    claims := (OrderedMap.empty.insert (claimOf 1 1).claimId (claimRecordOf 1 1)).insert
      (claimOf 2 1).claimId (claimRecordOf 2 1) }

theorem claimId_twin : (claimOf 2 1).claimId ≠ "" :=
  claimId_ne_empty (counting []) (claimIdMatchesKey_of_derived _ rfl List.length_replicate rfl)

theorem twins_ids : (claimOf 1 1).claimId ≠ (claimOf 2 1).claimId := claimOf_ids

/-- Both are recovered with one body. -/
def committedTwins (terminal body : Bytes) : StoreState :=
  committedState (claimOf 2 1).claimId (claimRecordOf 2 1) terminal body 0 false
    (committedState (claimOf 1 1).claimId (claimRecordOf 1 1) terminal body 0 false twinClaims)

/-- The receipt of the first is published and acknowledged. -/
def acknowledgedTwins (terminal body wire digest : Bytes) : StoreState :=
  { committedTwins terminal body with
    ackWithheld := false
    outbox :=
      [{ claimId := (claimOf 1 1).claimId, body, wire := some wire, digest
         ack := some { logId := firstStore.logId, sequence := 1, entryHash := digest
                       timestamp := 160 } },
       committedEntry (claimOf 2 1).claimId body] }

/-- The body of an interrupted claim does not name its replay epoch. -/
theorem interruptedResult_twin (epoch : Int) :
    v2EvaluationInterruptedResult (claimOf epoch 1) 100 initialV2EvaluationProgress
      = v2EvaluationInterruptedResult firstClaim 100 initialV2EvaluationProgress := by
  unfold v2EvaluationInterruptedResult
  rfl

theorem payload_twin (epoch : Int) (terminal body : Bytes) :
    validateV2FinalizationPayload (claimOf epoch 1) terminal body
      = validateV2FinalizationPayload firstClaim terminal body := by
  unfold validateV2FinalizationPayload
  rfl

/-- A run up to the recovery of both twins. -/
theorem run_committedTwins (table : List Bytes) {terminal body : Bytes}
    (hresult : v2EvaluationInterruptedResult firstClaim 100 initialV2EvaluationProgress
      = .ok (terminal, body))
    (hpayload : validateV2FinalizationPayload firstClaim terminal body = .ok ()) :
    ∃ labels, ReleaseRun (counting table) (none : StoreAnchor Unit)
      (Pool.init { store := firstStore, device := () }) labels
      (Pool.init { store := committedTwins terminal body, device := () }) := by
  have hone := @performs_claim (counting table) (claimOf 1 1) firstToken firstStore
    ⟨by decide, by decide, by decide⟩
    (claimIdMatchesKey_of_derived _ rfl List.length_replicate rfl) rfl rfl rfl
  have htwo := @performs_claim (counting table) (claimOf 2 1) firstToken
    (insertClaim none (claimRecordOf 1 1) firstStore.ticked) ⟨by decide, by decide, by decide⟩
    (claimIdMatchesKey_of_derived _ rfl List.length_replicate rfl)
    (OrderedMap.get?_insert_of_ne _ _ twins_ids.symm) rfl rfl
  have hwithhold : Performs (counting table) (none : StoreAnchor Unit)
      { store := insertClaim none (claimRecordOf 2 1)
          (insertClaim none (claimRecordOf 1 1) firstStore.ticked).ticked, device := () }
      (.setAcknowledgementWithheld true, .ok .configured)
      { store := { twinClaims with now := 100 }, device := () } := rfl
  have hset : Performs (counting table) (none : StoreAnchor Unit)
      { store := { twinClaims with now := 100 }, device := () } (.setTime 160, .ok .configured)
      { store := twinClaims, device := () } := rfl
  have hpassed : LeasePassed (claimOf 1 1).claimId (claimRecordOf 1 1) twinClaims :=
    { ready := ⟨by decide, by decide, by decide⟩
      found := (OrderedMap.get?_insert_of_ne _ _ twins_ids).trans (OrderedMap.get?_insert_self _ _ _)
      evaluating := rfl, leaseExpired := le_refl _ }
  have hpassed' : LeasePassed (claimOf 2 1).claimId (claimRecordOf 2 1) (committedState
      (claimOf 1 1).claimId (claimRecordOf 1 1) terminal body 0 false twinClaims) :=
    { ready := ⟨le_refl (160 : Int), hpassed.ready.nonneg, hpassed.ready.bounded⟩
      found := (OrderedMap.get?_insert_of_ne _ _ twins_ids.symm).trans
        (OrderedMap.get?_insert_self _ _ _)
      evaluating := rfl, leaseExpired := le_refl _ }
  have hfirst := @performs_recover (counting table) (claimRecordOf 1 1) twinClaims terminal body
    hpassed ((interruptedResult_twin 1).trans hresult)
    ((payload_twin 1 terminal body).trans hpayload)
  have hsecond := @performs_recover (counting table) (claimRecordOf 2 1) _ terminal body hpassed'
    ((interruptedResult_twin 2).trans hresult) ((payload_twin 2 terminal body).trans hpayload)
  exact ⟨_, ((((((ReleaseRun.before .nil (by simp) hone).before (by simp) htwo).before (by simp)
    hwithhold).before (by simp) hset).before (by simp) hfirst).before (by simp) hsecond)⟩

theorem found_committedTwins (terminal body : Bytes) :
    (committedTwins terminal body).claims.get? (claimOf 1 1).claimId
        = some ((claimRecordOf 1 1).commit terminal body 0 160 0)
      ∧ (committedTwins terminal body).claims.get? (claimOf 2 1).claimId
        = some ((claimRecordOf 2 1).commit terminal body 0 160 1) :=
  ⟨(OrderedMap.get?_insert_of_ne _ _ twins_ids).trans (OrderedMap.get?_insert_self _ _ _),
    OrderedMap.get?_insert_self _ _ _⟩

/-- The receipt of the first twin is published and acknowledged. -/
theorem run_acknowledgedTwins (table : List Bytes) {terminal body : Bytes}
    (hresult : v2EvaluationInterruptedResult firstClaim 100 initialV2EvaluationProgress
      = .ok (terminal, body))
    (hpayload : validateV2FinalizationPayload firstClaim terminal body = .ok ()) :
    ∃ labels wire digest, encodeVerificationReceiptV2 firstSigned = .ok wire
      ∧ verificationReceiptV2Digest (counting table) firstSigned = .ok digest
      ∧ ReleaseRun (counting table) (none : StoreAnchor Unit)
        (Pool.init { store := firstStore, device := () }) labels
        (Pool.init { store := acknowledgedTwins terminal body wire digest, device := () }) := by
  obtain ⟨labels, hrun⟩ := run_committedTwins table hresult hpayload
  obtain ⟨wire, digest, hwire, hdigest, hsigned⟩ := (accepting_counting table).sign_first
    (v2EvaluationInterruptedResult_eq_ok_iff.mp hresult).2.2.1
  have happendable : Appendable (claimOf 1 1).claimId body 0 (committedTwins terminal body) := by
    refine { committed := ?_, pending := rfl, open_ := rfl, next := by simp, signing := rfl }
    simp only [committedIndex, (found_committedTwins terminal body).1, ClaimRecord.commit, and_self,
      ↓reduceIte]
    rfl
  have hpublished := performs_publish happendable rfl hsigned hwire hdigest
  have hresumed : Performs (counting table) (none : StoreAnchor Unit)
      { store := { committedTwins terminal body with
          outbox := (committedTwins terminal body).outbox.modify 0
            fun e => { e with wire := some wire, digest } }, device := () }
      (.setAcknowledgementWithheld false, .ok .configured)
      { store := acknowledgedTwins terminal body wire digest, device := () } := rfl
  exact ⟨_, wire, digest, hwire, hdigest, (hrun.before (by simp) hpublished).before (by simp)
    hresumed⟩

/-- The handoff of the second twin, presented with the receipt of the first. -/
def twinRequest (body wire : Bytes) : ReleaseRequest := handoff (claimOf 2 1) body wire 0

theorem readyToRelease_twin (table : List Bytes) {terminal body wire digest : Bytes}
    (hresult : v2EvaluationInterruptedResult firstClaim 100 initialV2EvaluationProgress
      = .ok (terminal, body))
    (hwire : encodeVerificationReceiptV2 firstSigned = .ok wire)
    (hdigest : verificationReceiptV2Digest (counting table) firstSigned = .ok digest) :
    ReadyToRelease (counting table) (twinRequest body wire)
      ((claimRecordOf 2 1).commit terminal body 0 160 1)
      { wire, receipt := firstSigned, entryHash := digest } (entryAcknowledgement 0 digest 160) 0
      (acknowledgedTwins terminal body wire digest) := by
  have hbody : verificationReceiptV2Body firstSigned = .ok body :=
    (v2EvaluationInterruptedResult_eq_ok_iff.mp hresult).2.2.1
  exact
    { preflight := releasePreflight_handoff claimId_twin hbody
      found := (found_committedTwins terminal body).2
      terminal := rfl
      unreleased := rfl
      loaded := releaseLoaded_handoff rfl rfl rfl rfl hbody hwire hdigest
      sequence := rfl
      log := rfl
      predecessor := fun h => absurd h (lt_irrefl 0)
      entry := rfl
      acknowledged := releaseAcknowledged_entry rfl rfl rfl
      clock := ⟨le_refl (160 : Int), show (0 : Int) ≤ 160 by decide,
        show (160 : Int) ≤ v2MaxTimestampSeconds by decide⟩
      inTime := rfl }

theorem bodiesIn_acknowledgedTwins (terminal body wire digest : Bytes) :
    BodiesIn [body] (acknowledgedTwins terminal body wire digest) := by
  refine bodiesIn_insert_both twinClaims.claims rfl (fun key hfirst hsecond => ?_)
    List.mem_cons_self List.mem_cons_self
  exact (OrderedMap.get?_insert_of_ne _ _ hsecond).trans (OrderedMap.get?_insert_of_ne _ _ hfirst)

/-- The texts that are hashed when the twins are released. -/
theorem releaseTexts_twins {terminal body wire digest signable : Bytes} {s : Releases Unit}
    {p : StoreInteraction V2ReleaseResult} {x : V2ReleaseRecord}
    (hwire : encodeVerificationReceiptV2 firstSigned = .ok wire)
    (hsignable : verificationReceiptV2SignableBytes firstSigned = .ok signable)
    (hclients : s.clients = [(twinRequest body wire, p)])
    (hstore : s.shared.store
      = releaseRecorded x (abandonPending (acknowledgedTwins terminal body wire digest)).ticked) :
    releaseTexts s ⊆ {t | t ∈ [outboxText body, statementBodyText 8 signable]} := by
  have hbodies : BodiesIn [body] s.shared.store := by
    rw [hstore]
    exact BodiesIn.releaseRecorded
      (bodiesIn_acknowledgedTwins terminal body wire digest).abandonPending x
  refine releaseTexts_subset [wire] hbodies ?_ ?_ ?_ ?_
  · intro c hc
    rw [hclients, List.mem_singleton] at hc
    subst hc
    exact ⟨List.mem_cons_self, wire, List.mem_cons_self, rfl⟩
  · intro i wire' hw
    rw [hstore] at hw
    rcases i with _ | _ | i
    · exact List.mem_singleton.mpr (Option.some.inj hw).symm
    · cases hw
    · cases hw
  · intro b hb
    rw [List.mem_singleton.mp hb]
    exact List.mem_cons_self
  · intro w hw
    rw [List.mem_singleton.mp hw]
    exact ⟨firstSigned, signable, decodeVerificationReceiptV2_encode hwire, hsignable,
      List.mem_cons_of_mem _ List.mem_cons_self⟩

/-- A run in which a claim that is abandoned and has no outcome on record is released
afterwards, with a hash without collisions on the texts of the run. -/
structure AbandonedReleased (P : Primitives) (before after : List (Action ReleaseRequest OtherCall))
    (u s : Releases Unit) (request : ReleaseRequest) (r : ClaimRecord) (x : V2ReleaseRecord)
    (result : V2ReleaseResult) : Prop where
  new : StoreState.new P 100 60 "00000000000000000000000000000000" (tabledKey 1) = .ok firstStore
  first : ReleaseRun P none (Pool.init { store := firstStore, device := () }) before u
  abandoned : u.shared.store.claims.get? request.committed.claimId
    = some { r with abandoned := true }
  unreleased : r.release = none
  last : ReleaseRun P none u after s
  returned : s.At 0 request (.ret result)
  status : result.status = .released
  released : s.shared.store.claims.get? request.committed.claimId
    = some { r with abandoned := true, release := some x }
  outcome : x.outcome = .released
  injective : Set.InjOn P.sha384 (releaseTexts s)

theorem exists_abandonedReleased : ∃ P before after u s request r x result,
    AbandonedReleased P before after u s request r x result := by
  obtain ⟨terminal, body, hresult, hpayload⟩ := firstClaim_plain.passes
  have hbody : verificationReceiptV2Body firstInterrupted = .ok body :=
    (v2EvaluationInterruptedResult_eq_ok_iff.mp hresult).2.2.1
  obtain ⟨_, _, -, hsigned, -⟩ := (accepting_counting []).sign_first hbody
  obtain ⟨-, signable, hsignable, -⟩ := verificationReceiptV2Digest_eq_ok_iff.mp hsigned
  let table := [outboxText body, statementBodyText 8 signable]
  obtain ⟨labels, wire, digest, hwire, hdigest, hrun⟩ := run_acknowledgedTwins table hresult hpayload
  have hready := readyToRelease_twin table hresult hwire hdigest
  have hpending : (twinRequest body wire).committed.claimId
      ∈ pendingClaims (acknowledgedTwins terminal body wire digest) := List.mem_singleton_self _
  obtain ⟨u, s, hfirst, habandoned, hlast, hclients, hreleased, hstore⟩ :=
    ReadyToRelease.overtaken (s := { store := acknowledgedTwins terminal body wire digest
                                     device := () }) AnchorAccepts.none hready hpending
  have hinj : Set.InjOn (tableDigest table) {t | t ∈ table} := tableDigest_injOn (by simp [table])
  have hinj' : Set.InjOn (counting table).sha384 (releaseTexts s) :=
    hinj.mono (releaseTexts_twins hwire hsignable hclients hstore)
  have hat : s.At 0 (twinRequest body wire) (.ret (releasedResult (twinRequest body wire).committed
      { wire, receipt := firstSigned, entryHash := digest } 160)) := by
    rw [Pool.At, hclients]
    rfl
  have h : AbandonedReleased (counting table) _ _ u s (twinRequest body wire) _ _ _ :=
    { new := (accepting_counting table).new_firstStore, first := hrun.append hfirst
      abandoned := habandoned, unreleased := rfl, last := hlast, returned := hat, status := rfl
      released := hreleased, outcome := rfl, injective := hinj' }
  exact ⟨_, _, _, u, s, _, _, _, _, h⟩

end RatifyProtocol.V2
