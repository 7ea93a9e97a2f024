import RatifyProtocol.V2.ReleaseGrounds
import RatifyProtocol.V2.Reference.FrozenLog
import RatifyProtocol.V2.StatementBody
set_option autoImplicit false

/-!
# Reference store: release calls

Any number of release calls run against one store, interleaved with each other and
with every other call on it.  What a call was answered stays true of the store, and a
release record is never replaced.
-/

namespace RatifyProtocol.V2

open Foundation

variable {ω : Type} {P : Primitives} {anchor : StoreAnchor ω}

/-! ## Equal entry hashes -/

/-- Receipts with one signable text have one body. -/
theorem verificationReceiptV2Body_of_signable {r r' : VerificationReceiptV2} {b : Bytes}
    (hr : validateReceipt r false = .ok ()) (hr' : validateReceipt r' false = .ok ())
    (hb : verificationReceiptV2SignableBytes r = .ok b)
    (hb' : verificationReceiptV2SignableBytes r' = .ok b) :
    verificationReceiptV2Body r = verificationReceiptV2Body r' := by
  obtain ⟨hposition, hbody, -⟩ := validateReceipt_eq_ok_iff.mp hr
  obtain ⟨hposition', hbody', -⟩ := validateReceipt_eq_ok_iff.mp hr'
  have hdoc := wireDocument_receipt hposition hbody .signable
  have hdoc' := wireDocument_receipt hposition' hbody' .signable
  obtain ⟨n, hn, hd⟩ := hdoc.parseWire_ok hb
  obtain ⟨n', hn', hd'⟩ := hdoc'.parseWire_ok hb'
  obtain rfl := Except.ok.inj (hn.symm.trans hn')
  obtain ⟨o, ho, hview⟩ := objView_of_denotes hd hdoc.keys
  obtain ⟨o', ho', hview'⟩ := objView_of_denotes hd' hdoc'.keys
  obtain rfl := Except.ok.inj (ho.symm.trans ho')
  have hsame : r.atShape .signable = r'.atShape .signable := Except.ok.inj
    ((receiptFrom_of_view hview hposition hbody).symm.trans
      (receiptFrom_of_view hview' hposition' hbody'))
  have hunsigned : ∀ r : VerificationReceiptV2,
      verificationReceiptV2Body r = verificationReceiptV2Body (r.atShape .signable) := fun _ => rfl
  rw [hunsigned r, hunsigned r', hsame]

/-- The texts that are hashed for a receipt's entry hash. -/
def entryTexts (r : VerificationReceiptV2) : Set Bytes :=
  {t | ∃ b, verificationReceiptV2SignableBytes r = .ok b ∧ t = statementBodyText 8 b}

/-- The text that is hashed for a body's outbox digest. -/
def outboxText (body : Bytes) : Bytes := utf8 "ratify-protocol-receipt-outbox-v2\x00" ++ body

/-- Where SHA-384 keeps them apart, receipts with one entry hash have one body. -/
theorem verificationReceiptV2Body_of_digest {texts : Set Bytes} (hinj : Set.InjOn P.sha384 texts)
    {r r' : VerificationReceiptV2} {d : Bytes} (hr : entryTexts r ⊆ texts)
    (hr' : entryTexts r' ⊆ texts) (hd : verificationReceiptV2Digest P r = .ok d)
    (hd' : verificationReceiptV2Digest P r' = .ok d) :
    verificationReceiptV2Body r = verificationReceiptV2Body r' := by
  obtain ⟨hvalid, b, hb, hdigest⟩ := verificationReceiptV2Digest_eq_ok_iff.mp hd
  obtain ⟨hvalid', b', hb', hdigest'⟩ := verificationReceiptV2Digest_eq_ok_iff.mp hd'
  have htexts : statementBodyText 8 b = statementBodyText 8 b' :=
    hinj (hr ⟨b, hb, rfl⟩) (hr' ⟨b', hb', rfl⟩)
      ((statementBodyDigestV2_eq hdigest).symm.trans (statementBodyDigestV2_eq hdigest'))
  obtain ⟨-, rfl⟩ := statementBodyText_inj (by omega) (by omega) htexts
  exact verificationReceiptV2Body_of_signable hvalid hvalid' hb hb'

/-- Where SHA-384 keeps them apart, bodies with one outbox digest are one. -/
theorem receiptOutboxDigestV2_injOn {texts : Set Bytes} (hinj : Set.InjOn P.sha384 texts)
    {a b : Bytes} (ha : outboxText a ∈ texts) (hb : outboxText b ∈ texts)
    (h : receiptOutboxDigestV2 P a = receiptOutboxDigestV2 P b) : a = b := by
  have hhex := hexEncode_injective (String.append_right_inj "sha384:" |>.mp h)
  exact List.append_cancel_left (hinj ha hb hhex)

/-! ## Release records -/

/-- The release record of a claim. -/
def StoreState.release (s : StoreState) (id : String) : Option V2ReleaseRecord :=
  (s.claims.get? id).bind (·.release)

theorem release_eq_some_iff {s : StoreState} {id : String} {x : V2ReleaseRecord} :
    s.release id = some x ↔ ∃ r, s.claims.get? id = some r ∧ r.release = some x :=
  Option.bind_eq_some_iff

theorem release_of_claims_eq {s t : StoreState} (h : t.claims = s.claims) (id : String) :
    t.release id = s.release id := by
  rw [StoreState.release, h, StoreState.release]

theorem release_of_get? {s : StoreState} {id : String} {r : ClaimRecord}
    (h : s.claims.get? id = some r) : s.release id = r.release := by
  rw [StoreState.release, h, Option.bind_some]

theorem release_insert {m : OrderedMap String ClaimRecord} {id : String} {r r' : ClaimRecord}
    (hfound : m.get? id = some r) (hrelease : r'.release = r.release) (id' : String) :
    ((m.insert id r').get? id').bind (·.release) = (m.get? id').bind (·.release) := by
  rw [OrderedMap.get?_insert]
  split
  · rename_i hid
    rw [Option.bind_some, hrelease, hid, hfound, Option.bind_some]
  · rfl

theorem release_abandonPending (s : StoreState) (id : String) :
    (abandonPending s).release id = s.release id := by
  rw [StoreState.release, get?_abandonPending, StoreState.release]
  cases s.claims.get? id with
  | none => rfl
  | some r =>
    simp only [Option.map_some, Option.bind_some, markAbandoned]
    split <;> rfl

/-- A call changes no release record, but records the first of one claim. -/
theorem CallEffect.release {call : StoreCall} {r : V2StoreResult StoreReply} {s t : StoreState}
    (h : CallEffect P call s r t) (id : String) :
    t.release id = s.release id ∨ ∃ x, call = .recordRelease x ∧ x.claimId = id
      ∧ s.release id = none ∧ t.release id = some x := by
  cases h with
  | quiet hquiet _ => exact .inl (release_of_claims_eq hquiet.claims id)
  | @created claim _ _ _ _ hnew =>
    obtain rfl := hnew.state
    by_cases hid : id = claim.claimId
    · subst hid
      refine .inl ((congrArg (fun r => Option.bind r ClaimRecord.release)
        (OrderedMap.get?_insert_self _ _ _)).trans ?_)
      rw [StoreState.release, hnew.unused]
      rfl
    · exact .inl (congrArg (fun r => Option.bind r ClaimRecord.release)
        (OrderedMap.get?_insert_of_ne _ _ hid))
  | progressed hnew =>
    obtain rfl := hnew.state
    refine .inl (release_insert hnew.found ?_ id)
    rfl
  | finalized hnew =>
    obtain rfl := hnew.state
    refine .inl (release_insert hnew.found ?_ id)
    rfl
  | recovered hnew =>
    obtain rfl := hnew.state
    refine .inl (release_insert hnew.found ?_ id)
    rfl
  | @released x record _ _ hnew =>
    obtain rfl := hnew.state
    by_cases hid : x.claimId = id
    · subst hid
      refine .inr ⟨x, rfl, rfl, (release_of_get? hnew.found).trans hnew.first, ?_⟩
      exact (congrArg (fun r => Option.bind r ClaimRecord.release)
        (OrderedMap.get?_insert_self _ _ _)).trans rfl
    · exact .inl (congrArg (fun r => Option.bind r ClaimRecord.release)
        (OrderedMap.get?_insert_of_ne _ _ (Ne.symm hid)))
  | appended hnew hsubmitted =>
    refine .inl (release_of_claims_eq ?_ id)
    rcases hsubmitted with rfl | hack
    · rw [hnew.state]
    · rw [hack.claims, hnew.state]
  | acknowledged hnew =>
    obtain rfl := hnew.state
    exact .inl (release_of_claims_eq rfl id)
  | forked => exact .inl (release_of_claims_eq rfl id)
  | timeSet => exact .inl (release_of_claims_eq rfl id)
  | signerSet => exact .inl (release_of_claims_eq rfl id)
  | withheldSet hsubmitted =>
    refine .inl (release_of_claims_eq ?_ id)
    rcases hsubmitted with rfl | hack
    · rfl
    · exact hack.claims
  | rateEnabled => exact .inl (release_of_claims_eq rfl id)
  | abandoned => exact .inl (release_abandonPending s id)

/-- A release record is never replaced. -/
theorem CallEffect.release_kept {call : StoreCall} {r : V2StoreResult StoreReply}
    {s t : StoreState} (h : CallEffect P call s r t) {id : String} {x : V2ReleaseRecord}
    (hx : s.release id = some x) : t.release id = some x := by
  obtain hsame | ⟨y, -, -, hnone, -⟩ := h.release id
  · exact hsame.trans hx
  · rw [hx] at hnone
    cases hnone

/-! ## What an answer says -/

/-- A loaded record is that of a terminal claim. -/
structure LoadedFrom (P : Primitives) (record : V2TerminalClaimRecord) (r : ClaimRecord) :
    Prop where
  terminal : r.state = .terminal
  digest : record.receiptOutboxDigest = receiptOutboxDigestV2 P r.receiptBody
  expires : record.challengeExpiresAt = r.claim.expiresAt
  horizon : record.allowHorizon = r.allowHorizon
  finalized : record.finalizedAt = r.finalizedAt

/-- What the answer to a call says about the store, as far as it cannot change. -/
structure Answered (P : Primitives) (s : StoreState) (call : StoreCall)
    (answer : V2StoreResult StoreReply) : Prop where
  loaded : ∀ id record, call = .loadTerminal id → answer = .ok (.terminalClaim record) →
    (record.terminal = true → ∃ r, s.claims.get? id = some r ∧ LoadedFrom P record r)
      ∧ ∀ x, record.release = some x → s.release id = some x
  acknowledged : ∀ logId sequence ack, call = .getAcknowledgement logId sequence →
    answer = .ok (.acknowledged ack) → ∃ (i : Nat) (e : OutboxEntry),
      s.outbox[i]? = some e ∧ e.ack = some ack
  recorded : ∀ x reply, call = .recordRelease x → answer = .ok reply →
    s.release x.claimId = some x

theorem Answered.kept {s t : StoreState} {call next : StoreCall}
    {answer r : V2StoreResult StoreReply} (h : Answered P s call answer) (hlog : LogIntact P s)
    (heffect : CallEffect P next s r t) : Answered P t call answer := by
  refine { loaded := ?_, acknowledged := ?_, recorded := ?_ }
  · intro id record hcall hanswer
    obtain ⟨hterminal, hprior⟩ := h.loaded id record hcall hanswer
    refine ⟨fun hstate => ?_, fun x hx => heffect.release_kept (hprior x hx)⟩
    obtain ⟨r₀, hr₀, hloaded⟩ := hterminal hstate
    obtain ⟨r', hr', hsame⟩ := heffect.terminalsKept id r₀ hr₀ hloaded.terminal
    refine ⟨r', hr', ?_⟩
    exact
      { terminal := hsame.state.trans hloaded.terminal
        digest := by rw [hsame.receiptBody, hloaded.digest]
        expires := by rw [hsame.claim, hloaded.expires]
        horizon := by rw [hsame.allowHorizon, hloaded.horizon]
        finalized := by rw [hsame.finalizedAt, hloaded.finalized] }
  · intro logId sequence ack hcall hanswer
    obtain ⟨i, e, he, hack⟩ := h.acknowledged logId sequence ack hcall hanswer
    obtain ⟨e', he', hext⟩ := (heffect.logExtends hlog).kept i e he
    exact ⟨i, e', he', hext.acknowledged ack hack⟩
  · intro x reply hcall hanswer
    exact heffect.release_kept (h.recorded x reply hcall hanswer)

theorem loadV2TerminalClaim_eq_ok {id : String} {record : V2TerminalClaimRecord}
    {s t : Anchored ω} (h : loadV2TerminalClaim P id s = (.ok record, t)) :
    t = s ∧ ∃ r, s.store.claims.get? id = some r
      ∧ (record.terminal = true → LoadedFrom P record r)
      ∧ record.receiptAbandoned = r.abandoned ∧ record.release = r.release := by
  simp only [loadV2TerminalClaim, getStore_bind] at h
  cases hfound : s.store.claims.get? id with
  | none =>
    simp only [hfound] at h
    cases h
  | some r =>
    simp only [hfound] at h
    cases h
    refine ⟨rfl, r, rfl, fun hterminal => ?_, rfl, rfl⟩
    exact
      { terminal := of_decide_eq_true hterminal, digest := if_pos hterminal, expires := rfl
        horizon := rfl, finalized := rfl }

theorem loadV2TerminalClaim_found {id : String} {r : ClaimRecord} {s : Anchored ω}
    (h : s.store.claims.get? id = some r) :
    ∃ record, loadV2TerminalClaim P id s = (.ok record, s)
      ∧ record.receiptAbandoned = r.abandoned := by
  rw [loadV2TerminalClaim, getStore_bind, h]
  exact ⟨_, rfl, rfl⟩

theorem getV2Acknowledgement_eq_ok {logId : String} {sequence : Int}
    {ack : V2CheckpointAcknowledgement} {s t : Anchored ω}
    (h : getV2Acknowledgement logId sequence s = (.ok ack, t)) :
    t = s ∧ ∃ (i : Nat) (e : OutboxEntry), s.store.outbox[i]? = some e ∧ e.ack = some ack := by
  simp only [getV2Acknowledgement, getStore_bind] at h
  split at h
  · cases h
  · cases hack : (s.store.outbox[(sequence - 1).toNat]?).bind (·.ack) with
    | none =>
      simp only [hack] at h
      cases h
    | some ack' =>
      simp only [hack] at h
      cases h
      obtain ⟨e, he, hack⟩ := Option.bind_eq_some_iff.mp hack
      exact ⟨rfl, _, e, he, hack⟩

/-- Release records stand under the claim they name. -/
def ReleasesNamed (s : StoreState) : Prop :=
  ∀ id x, s.release id = some x → x.claimId = id

theorem ReleasesNamed.kept {s t : StoreState} (h : ReleasesNamed s) {call : StoreCall}
    {r : V2StoreResult StoreReply} (heffect : CallEffect P call s r t) : ReleasesNamed t := by
  intro id x hx
  obtain hsame | ⟨y, -, hid, -, hy⟩ := heffect.release id
  · exact h id x (hsame.symm.trans hx)
  · obtain rfl := Option.some.inj (hy.symm.trans hx)
    exact hid

theorem SameRelease.eq {a b : V2ReleaseRecord} (h : SameRelease a b)
    (hid : a.claimId = b.claimId) : a = b := by
  obtain ⟨hentry, hack, houtcome, hreason⟩ := h
  cases a
  cases b
  cases hid
  cases hentry
  cases hack
  cases houtcome
  cases hreason
  rfl

/-- Right after a call its answer holds. -/
theorem answered_perform {call : StoreCall} {s t : Anchored ω} {r : V2StoreResult StoreReply}
    (hnamed : ReleasesNamed s.store) (h : call.perform P anchor s = (r, t)) :
    Answered P t.store call r := by
  refine { loaded := ?_, acknowledged := ?_, recorded := ?_ }
  · rintro id record rfl rfl
    obtain ⟨r', hm, hr⟩ := reply_eq h
    obtain ⟨record', rfl, hrecord⟩ := map_eq_ok hr.symm
    obtain rfl := StoreReply.terminalClaim.inj hrecord
    obtain ⟨rfl, claim, hclaim, hloaded, -, hrelease⟩ := loadV2TerminalClaim_eq_ok hm
    refine ⟨fun hterminal => ⟨claim, hclaim, hloaded hterminal⟩, fun x hx => ?_⟩
    exact (release_of_get? hclaim).trans (hrelease.symm.trans hx)
  · rintro logId sequence ack rfl rfl
    obtain ⟨r', hm, hr⟩ := reply_eq h
    obtain ⟨ack', rfl, hack⟩ := map_eq_ok hr.symm
    obtain rfl := StoreReply.acknowledged.inj hack
    obtain ⟨rfl, hentry⟩ := getV2Acknowledgement_eq_ok hm
    exact hentry
  · rintro x reply rfl rfl
    obtain ⟨r', hm, hr⟩ := reply_eq h
    obtain ⟨⟨⟩, rfl, -⟩ := map_eq_ok hr.symm
    rcases recordV2Release_cases hm with ⟨hs, hsame⟩ | ⟨⟨record, hnew⟩, -⟩
    · obtain ⟨record, existing, hfound, hexisting, hsame⟩ := hsame () rfl
      have hrelease : s.store.release x.claimId = some existing :=
        release_eq_some_iff.mpr ⟨record, hfound, hexisting⟩
      rw [hs, hrelease, hsame.eq (hnamed _ _ hrelease)]
    · rw [hnew.state]
      exact release_eq_some_iff.mpr ⟨_, OrderedMap.get?_insert_self _ _ _, rfl⟩

/-! ## Release calls on one store -/

/-- A call on the store that records no outcome. -/
abbrev OtherCall := {call : StoreCall // ∀ x, call ≠ .recordRelease x}

/-- Release calls against one store that serves every other call too. -/
def releaseService (P : Primitives) (anchor : StoreAnchor ω) :
    Service (Anchored ω) ReleaseRequest StoreCall (V2StoreResult StoreReply) OtherCall
      V2ReleaseResult where
  program := releaseV2Decision P
  perform := fun s call => ((call.perform P anchor s).2, (call.perform P anchor s).1)
  outside := fun s call => (call.1.perform P anchor s).2

/-- The release calls that were started, with the store they share. -/
abbrev Releases (ω : Type) :=
  Pool (Anchored ω) ReleaseRequest StoreCall (V2StoreResult StoreReply) V2ReleaseResult

abbrev ReleaseRun (P : Primitives) (anchor : StoreAnchor ω) (s : Releases ω)
    (labels : List (Action ReleaseRequest OtherCall)) (t : Releases ω) : Prop :=
  Run (Pool.Step (releaseService P anchor)) s labels t

/-- What happens to the store is a run of it. -/
theorem ReleaseRun.storeRun {s t : Releases ω} {labels : List (Action ReleaseRequest OtherCall)}
    (run : ReleaseRun P anchor s labels t) :
    ∃ events, StoreRun P anchor s.shared events t.shared := by
  refine Run.invariant (fun t : Releases ω => ∃ events, StoreRun P anchor s.shared events t.shared)
    ⟨[], .nil⟩ ?_ run
  intro t a u ⟨events, hrun⟩ hstep
  cases hstep with
  | start c => exact ⟨events, hrun⟩
  | @advance n c i next hat =>
    exact ⟨_, hrun.snoc (i := (i, (i.perform P anchor t.shared).1)) rfl⟩
  | outside e => exact ⟨_, hrun.snoc (i := (e.1, (e.1.perform P anchor t.shared).1)) rfl⟩

/-- Every answer holds, and what stands on record was recorded by a release call. -/
structure ReleasesAnswered (P : Primitives) (s : Releases ω) : Prop where
  answered : ∀ call ∈ s.history, Answered P s.shared.store call.request call.answer
  named : ReleasesNamed s.shared.store
  recorded : ∀ id x, s.shared.store.release id = some x →
    ∃ n answer, ⟨n, .recordRelease x, answer⟩ ∈ s.history

theorem ReleasesAnswered.step {s t : Releases ω} {a : Action ReleaseRequest OtherCall}
    (h : ReleasesAnswered P s) (hlog : LogIntact P s.shared.store)
    (hstep : Pool.Step (releaseService P anchor) s a t) : ReleasesAnswered P t := by
  cases hstep with
  | start c => exact ⟨h.answered, h.named, h.recorded⟩
  | @advance n c i next hat =>
    have heffect : CallEffect P i s.shared.store (i.perform P anchor s.shared).1
        (i.perform P anchor s.shared).2.store := perform_effect rfl
    refine { answered := ?_, named := h.named.kept heffect, recorded := ?_ }
    · intro call hcall
      obtain hold | hnew := List.mem_append.mp hcall
      · exact (h.answered call hold).kept hlog heffect
      · obtain rfl := List.mem_singleton.mp hnew
        exact answered_perform h.named rfl
    · intro id x hx
      obtain hsame | ⟨y, rfl, -, -, hy⟩ := heffect.release id
      · obtain ⟨m, answer, hmem⟩ := h.recorded id x (hsame.symm.trans hx)
        exact ⟨m, answer, List.mem_append_left _ hmem⟩
      · obtain rfl := Option.some.inj (hy.symm.trans hx)
        exact ⟨n, _, List.mem_append_right _ (List.mem_singleton.mpr rfl)⟩
  | outside e =>
    have heffect : CallEffect P e.1 s.shared.store (e.1.perform P anchor s.shared).1
        (e.1.perform P anchor s.shared).2.store := perform_effect rfl
    refine
      { answered := fun call hcall => (h.answered call hcall).kept hlog heffect
        named := h.named.kept heffect
        recorded := ?_ }
    intro id x hx
    obtain hsame | ⟨y, hy, -⟩ := heffect.release id
    · exact h.recorded id x (hsame.symm.trans hx)
    · exact absurd hy (e.2 y)

/-! ## Abandoned claims -/

/-- An abandoned claim is terminal, and nothing is appended for it. -/
def AbandonedPending (s : StoreState) : Prop :=
  ∀ id r, s.claims.get? id = some r → r.abandoned = true →
    s.logFrozen = true ∧ r.state = .terminal ∧ ∀ i, r.outboxIndex = some i → wireAt s i = none

theorem AbandonedPending.step {s t : Anchored ω} {i : StoreEvent}
    (h : AbandonedPending s.store) (hlog : LogIntact P s.store) (hlast : Performs P anchor s i t) :
    AbandonedPending t.store := by
  intro id r' hr' hmarked
  cases performs_fateEffect hlog hlast with
  | kept fates _ _ =>
    obtain ⟨-, hunmarked⟩ | ⟨r, hr, hsame⟩ := fates.claims id r' hr'
    · rw [hunmarked] at hmarked
      cases hmarked
    · obtain ⟨hfrozen, hterminal, hpending⟩ := h id r hr (hsame.abandoned.symm.trans hmarked)
      refine ⟨fates.frozen.trans hfrozen, hsame.state.trans hterminal, fun j hj => ?_⟩
      rw [fates.wires j]
      exact hpending j (hsame.position.symm.trans hj)
  | appended unfrozen _ claims =>
    obtain ⟨hfrozen, -⟩ := h id r' (claims ▸ hr') hmarked
    rw [unfrozen] at hfrozen
    cases hfrozen
  | @committed claimId record terminal body horizon _ _ _ new =>
    have hclaims : t.store.claims.get? id = if id = claimId then
        some (record.commit terminal body horizon s.store.now s.store.outbox.length)
        else s.store.claims.get? id := by
      rw [new.state]
      exact OrderedMap.get?_insert _ _ _ _
    rw [hclaims] at hr'
    split at hr'
    · -- What is newly committed was evaluating, so it is not abandoned.
      cases hr'
      obtain ⟨-, hterminal, -⟩ := h claimId record new.found hmarked
      rw [new.evaluating] at hterminal
      cases hterminal
    · obtain ⟨hfrozen, hterminal, hpending⟩ := h id r' hr' hmarked
      refine ⟨?_, hterminal, fun j hj => ?_⟩
      · rw [new.state]
        exact hfrozen
      · rw [wireAt_append (congrArg StoreState.outbox new.state) rfl j]
        exact hpending j hj
  | abandoned _ state =>
    have hwires : ∀ j, wireAt t.store j = wireAt s.store j := by
      intro j
      rw [state]
      rfl
    rw [state, get?_abandonPending] at hr'
    obtain ⟨r, hr, rfl⟩ := Option.map_eq_some_iff.mp hr'
    refine ⟨by rw [state]; rfl, ?_⟩
    unfold markAbandoned at hmarked ⊢
    split
    · rename_i hpending
      obtain ⟨e, he, rfl⟩ := List.mem_map.mp hpending
      obtain ⟨hentry, hnone⟩ := List.mem_filter.mp he
      obtain ⟨j, hj⟩ := List.getElem?_of_mem hentry
      obtain ⟨r₀, hr₀⟩ := hlog.committed j e hj
      obtain rfl := Option.some.inj (hr.symm.trans hr₀.found)
      refine ⟨hr₀.terminal, fun k hk => ?_⟩
      obtain rfl := Option.some.inj (hr₀.position.symm.trans hk)
      rw [hwires, wireAt, hj]
      exact Option.isNone_iff_eq_none.mp hnone
    · rename_i hkept
      rw [if_neg hkept] at hmarked
      obtain ⟨-, hterminal, hpending⟩ := h id r hr hmarked
      exact ⟨hterminal, fun k hk => (hwires k).trans (hpending k hk)⟩

/-! ## Every run of release calls -/

/-- What holds in every state a run of release calls reaches. -/
structure ReleasesSound (P : Primitives) (s : Releases ω) : Prop where
  log : LogIntact P s.shared.store
  times : TimesKept s.shared.store
  answers : ReleasesAnswered P s
  abandoned : AbandonedPending s.shared.store

theorem ReleasesSound.step {s t : Releases ω} {a : Action ReleaseRequest OtherCall}
    (h : ReleasesSound P s) (hstep : Pool.Step (releaseService P anchor) s a t) :
    ReleasesSound P t := by
  have hanswers := h.answers.step h.log hstep
  cases hstep with
  | start c => exact ⟨h.log, h.times, hanswers, h.abandoned⟩
  | @advance n c i next hat =>
    have hperforms : Performs P anchor s.shared (i, (i.perform P anchor s.shared).1)
        (i.perform P anchor s.shared).2 := rfl
    have heffect := perform_effect hperforms
    exact ⟨h.log.step h.times heffect, h.times.step heffect, hanswers,
      h.abandoned.step h.log hperforms⟩
  | outside e =>
    have hperforms : Performs P anchor s.shared (e.1, (e.1.perform P anchor s.shared).1)
        (e.1.perform P anchor s.shared).2 := rfl
    have heffect := perform_effect hperforms
    exact ⟨h.log.step h.times heffect, h.times.step heffect, hanswers,
      h.abandoned.step h.log hperforms⟩

theorem ReleasesSound.initial {now leaseSeconds : Int} {logId : String}
    {verifierKey : HybridPublicKey} {start : StoreState} {device : ω}
    (hnew : StoreState.new P now leaseSeconds logId verifierKey = .ok start) :
    ReleasesSound P (Pool.init (Anchored.mk start device) : Releases ω) := by
  obtain ⟨verifierId, -, -, -, rfl⟩ := StoreState.new_eq_ok hnew
  have hnone : ∀ id : String, (OrderedMap.empty : OrderedMap String ClaimRecord).get? id = none :=
    fun _ => rfl
  refine
    { log := .initial rfl rfl
      times := fun id r hr => absurd (hr.symm.trans (hnone id)) (Option.some_ne_none r)
      answers := ?_
      abandoned := fun id r hr => absurd (hr.symm.trans (hnone id)) (Option.some_ne_none r) }
  exact
    { answered := fun call hcall => absurd hcall List.not_mem_nil
      named := fun id x hx => absurd hx (Option.some_ne_none x).symm
      recorded := fun id x hx => absurd hx (Option.some_ne_none x).symm }

theorem ReleaseRun.sound {s t : Releases ω} {labels : List (Action ReleaseRequest OtherCall)}
    (h : ReleasesSound P s) (run : ReleaseRun P anchor s labels t) : ReleasesSound P t :=
  Run.invariant (ReleasesSound P) h (fun _ _ _ ht hstep => ht.step hstep) run

/-- A release record stays through a run. -/
theorem ReleaseRun.release_kept {s t : Releases ω}
    {labels : List (Action ReleaseRequest OtherCall)} (run : ReleaseRun P anchor s labels t)
    {id : String} {x : V2ReleaseRecord} (hx : s.shared.store.release id = some x) :
    t.shared.store.release id = some x := by
  obtain ⟨events, hrun⟩ := run.storeRun
  exact Run.invariant (fun t : Anchored ω => t.store.release id = some x) hx
    (fun _ _ _ ht hlast => (perform_effect hlast).release_kept ht) hrun

/-! ## Hashed texts -/

/-- The texts that SHA-384 has to keep apart: the committed bodies of the claims and of
the handoffs, and the signable bodies of the receipts that were presented or published. -/
def releaseTexts (s : Releases ω) : Set Bytes :=
  {t | (∃ id r, s.shared.store.claims.get? id = some r ∧ t = outboxText r.receiptBody)
    ∨ (∃ n request p, s.At n request p ∧ t = outboxText request.committed.receiptBody)
    ∨ (∃ n request p wire receipt, s.At n request p ∧ request.signedReceipt = some wire
      ∧ decodeVerificationReceiptV2 wire = .ok receipt ∧ t ∈ entryTexts receipt)
    ∨ ∃ (i : Nat) (wire : Bytes) (receipt : VerificationReceiptV2),
      wireAt s.shared.store i = some wire
        ∧ decodeVerificationReceiptV2 wire = .ok receipt ∧ t ∈ entryTexts receipt}

end RatifyProtocol.V2
