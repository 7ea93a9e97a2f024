import RatifyProtocol.V2.LogRuns
import RatifyProtocol.V2.Reference.LogIntegrity
import RatifyProtocol.V2.Reference.Admission
set_option autoImplicit false

/-!
# Reference store: publishing the log in order

Every committed claim keeps the body its finalization was checked with.  With a
working signer the entries of the outbox are published in log order, up to the
first one whose claim is not of the store's verifier.
-/

namespace RatifyProtocol.V2

open Foundation

variable {ω : Type} {P : Primitives} {anchor : StoreAnchor ω}

/-! ## What stands committed -/

/-- Every terminal claim holds a body its sealed values were checked against, and
every published body is of the store's verifier, whose key signs the log. -/
structure StoreSealed (P : Primitives) (s : StoreState) : Prop where
  payload : ∀ (id : String) (r : ClaimRecord), s.claims.get? id = some r → r.state = .terminal →
    validateV2FinalizationPayload r.claim r.terminal r.receiptBody = .ok ()
  key : keyIdV2 P s.verifierKey = .ok s.verifierId
  logId : (utf8 s.logId).length = 32
  owned : ∀ (i : Nat) (e : OutboxEntry), s.outbox[i]? = some e → e.wire.isSome = true →
    ∃ b, decodeVerificationReceiptBodyV2 e.body = .ok b ∧ b.verifierId = s.verifierId

/-- The verifier of the body a finalization was checked with. -/
theorem validateV2FinalizationPayload_verifier {claim : V2ChallengeClaim} {terminal body : Bytes}
    (h : validateV2FinalizationPayload claim terminal body = .ok ()) :
    ∃ b, decodeVerificationReceiptBodyV2 body = .ok b ∧ b.verifierId = claim.verifierId := by
  simp only [validateV2FinalizationPayload, classify_eq_ok_iff, bind_eq_ok_iff] at h
  obtain ⟨b, hb, _, hverifier, -⟩ := h
  rw [refuseIf_eq_ok_iff, bne_eq_false_iff_eq] at hverifier
  exact ⟨b, hb, hverifier⟩

/-- A body is only signed for the verifier of the log. -/
theorem signPrepared_verifier {data : Bytes} {head : ReceiptV2Head} {signer : SignerV2}
    {r : VerificationReceiptV2}
    (h : signPreparedVerificationReceiptV2WithSigner P data head signer = .ok r) :
    ∃ b, decodeVerificationReceiptBodyV2 data = .ok b ∧ b.verifierId = head.verifierId := by
  simp only [signPreparedVerificationReceiptV2WithSigner, bind_eq_ok_iff] at h
  obtain ⟨bound, hbound, -⟩ := h
  cases hb : bindVerificationReceiptBodyV2 data head with
  | error e =>
    rw [hb] at hbound
    cases hbound
  | ok b =>
    simp only [bindVerificationReceiptBodyV2, bind_eq_ok_iff] at hb
    obtain ⟨-, -, -, -, r', hdecode, _, hverifier, -⟩ := hb
    rw [refuseIf_eq_ok_iff, bne_eq_false_iff_eq] at hverifier
    exact ⟨r', hdecode, hverifier⟩

theorem StoreSealed.initial {s : StoreState} (hclaims : s.claims = .empty)
    (houtbox : s.outbox = []) (hkey : keyIdV2 P s.verifierKey = .ok s.verifierId)
    (hlogId : (utf8 s.logId).length = 32) : StoreSealed P s := by
  refine { payload := ?_, key := hkey, logId := hlogId, owned := ?_ }
  · intro id r hr
    rw [hclaims] at hr
    cases hr
  · intro i e he
    rw [houtbox] at he
    cases he

/-- A step that keeps the claims, the verifier and what is published. -/
theorem StoreSealed.kept {s t : StoreState} (h : StoreSealed P s) (hclaims : ClaimsKept s t)
    (hkey : t.verifierKey = s.verifierKey) (hid : t.verifierId = s.verifierId)
    (hlogId : t.logId = s.logId)
    (houtbox : ∀ (i : Nat) (e : OutboxEntry), t.outbox[i]? = some e → e.wire.isSome = true →
      ∃ e₀, s.outbox[i]? = some e₀ ∧ e₀.body = e.body ∧ e₀.wire = e.wire) :
    StoreSealed P t := by
  refine
    { payload := ?_, key := by rw [hkey, hid]; exact h.key
      logId := by rw [hlogId]; exact h.logId, owned := ?_ }
  · intro id r hr hterminal
    obtain ⟨r₀, hr₀, hsame⟩ := hclaims.before hr
    rw [hsame] at hterminal ⊢
    exact h.payload id r₀ hr₀ hterminal
  · intro i e he hwire
    obtain ⟨e₀, he₀, hbody, hsame⟩ := houtbox i e he hwire
    rw [hid, ← hbody]
    exact h.owned i e₀ he₀ (hsame ▸ hwire)

theorem EntriesAcknowledged.entries {s t : StoreState} (hlog : LogIntact P s)
    (h : EntriesAcknowledged s t) (i : Nat) (e : OutboxEntry) (he : t.outbox[i]? = some e) :
    ∃ e₀, s.outbox[i]? = some e₀ ∧ e₀.body = e.body ∧ e₀.wire = e.wire := by
  rw [(h.ackStep hlog).outbox] at he
  obtain ⟨e₀, he₀, rfl⟩ := Option.map_eq_some_iff.mp he
  refine ⟨e₀, he₀, ?_, ?_⟩ <;> split <;> rfl

/-- A step that commits a claim with a checked body. -/
theorem StoreSealed.afterCommitted {claimId : String} {record : ClaimRecord}
    {terminal body : Bytes} {horizon : Int} {admitted : Bool} {s : StoreState}
    (h : StoreSealed P s)
    (hpayload : validateV2FinalizationPayload record.claim terminal body = .ok ()) :
    StoreSealed P (committedState claimId record terminal body horizon admitted s) := by
  refine { payload := ?_, key := h.key, logId := h.logId, owned := ?_ }
  · intro id r hr hterminal
    simp only [committedState, OrderedMap.get?_insert] at hr
    split at hr
    · cases hr
      exact hpayload
    · exact h.payload id r hr hterminal
  · intro i e he hwire
    rcases getElem?_append_singleton he with ⟨-, he⟩ | ⟨-, rfl⟩
    · exact h.owned i e he hwire
    · cases hwire

/-- A step that publishes an entry. -/
theorem StoreSealed.afterAppended {claimId : String} {body : Bytes}
    {sign : V2ObjectType → Bytes → V2SignResult HybridSignature} {index : Nat}
    {receipt : VerificationReceiptV2} {wire digest : Bytes} {entry : OutboxEntry}
    {s t : StoreState} (h : StoreSealed P s) (hlog : LogIntact P s)
    (hnew : EntryAppended P claimId body sign index receipt wire digest entry s t) :
    StoreSealed P t := by
  obtain rfl := hnew.state
  refine { payload := h.payload, key := h.key, logId := h.logId, owned := ?_ }
  intro i e he hwire
  rcases getElem?_modify_eq_some he with ⟨-, he⟩ | ⟨rfl, x, hx, rfl⟩
  · exact h.owned i e he hwire
  · rw [show ({ x with wire := some wire, digest } : OutboxEntry).body = body from
      (hlog.committedBody hnew.committed hx).2]
    exact signPrepared_verifier hnew.signed

/-- Every call keeps the store sealed. -/
theorem StoreSealed.step {call : StoreCall} {r : V2StoreResult StoreReply} {s t : StoreState}
    (h : StoreSealed P s) (hlog : LogIntact P s) (heffect : CallEffect P call s r t) :
    StoreSealed P t := by
  have hsame : ∀ {u : StoreState}, u.claims = s.claims → u.outbox = s.outbox →
      u.verifierKey = s.verifierKey → u.verifierId = s.verifierId → u.logId = s.logId →
      StoreSealed P u :=
    fun hclaims houtbox hkey hid hlogId => h.kept (.of_claims_eq hclaims) hkey hid hlogId
      fun i e he _ => ⟨e, by rw [← houtbox]; exact he, rfl, rfl⟩
  cases heffect with
  | quiet hquiet _ =>
    refine hsame hquiet.claims hquiet.outbox ?_ ?_ ?_ <;> rcases hquiet with rfl | ⟨-, rfl⟩ <;> rfl
  | created hnew =>
    obtain rfl := hnew.state
    refine { payload := ?_, key := h.key, logId := h.logId, owned := h.owned }
    intro id r hr hterminal
    simp only [insertClaim, OrderedMap.get?_insert] at hr
    split at hr
    · cases hr
      cases hterminal
    · exact h.payload id r hr hterminal
  | progressed hnew =>
    obtain rfl := hnew.state
    refine h.kept (.of_insert hnew.found ?_ rfl) rfl rfl rfl fun i e he _ => ⟨e, he, rfl, rfl⟩
    rfl
  | finalized hnew =>
    obtain rfl := hnew.state
    exact h.afterCommitted hnew.payload
  | recovered hnew =>
    obtain rfl := hnew.state
    exact h.afterCommitted hnew.payload
  | released hnew =>
    obtain rfl := hnew.state
    refine h.kept (.of_insert hnew.found ?_ rfl) rfl rfl rfl fun i e he _ => ⟨e, he, rfl, rfl⟩
    rfl
  | appended hnew hsubmitted =>
    have happended := h.afterAppended hlog hnew
    rcases hsubmitted with rfl | hack
    · exact happended
    · refine happended.kept (.of_claims_eq hack.claims) ?_ ?_ ?_ fun i e he _ =>
        hack.entries (hlog.afterAppended hnew) i e he
      all_goals rw [hack.state]; rfl
  | acknowledged hnew =>
    refine h.kept (.of_claims_eq (hnew.ackStep hlog).claims) ?_ ?_ (hnew.ackStep hlog).log
      fun i e he _ => ?_
    · rw [hnew.state]
      rfl
    · rw [hnew.state]
      rfl
    · rw [(hnew.ackStep hlog).outbox] at he
      obtain ⟨e₀, he₀, rfl⟩ := Option.map_eq_some_iff.mp he
      refine ⟨e₀, he₀, ?_, ?_⟩ <;> split <;> rfl
  | forked => exact hsame rfl rfl rfl rfl rfl
  | timeSet => exact hsame rfl rfl rfl rfl rfl
  | signerSet => exact hsame rfl rfl rfl rfl rfl
  | @withheldSet withheld _ _ hsubmitted =>
    rcases hsubmitted with rfl | hack
    · exact hsame rfl rfl rfl rfl rfl
    · have hset : LogIntact P { s with ackWithheld := withheld } :=
        hlog.kept rfl rfl (le_refl _) (.of_claims_eq rfl)
      refine h.kept (.of_claims_eq hack.claims) ?_ ?_ ?_ fun i e he _ => hack.entries hset i e he
      all_goals rw [hack.state]; rfl
  | rateEnabled => exact hsame rfl rfl rfl rfl rfl
  | abandoned =>
    exact h.kept (claimsKept_abandonPending s) rfl rfl rfl fun i e he _ => ⟨e, he, rfl, rfl⟩

/-! ## The head of a published log -/

/-- The first `n` entries are published. -/
def PublishedTo (s : StoreState) (n : Nat) : Prop :=
  ∀ (i : Nat) (e : OutboxEntry), i < n → s.outbox[i]? = some e → e.wire.isSome = true

/-- No statement body hashes to the genesis link. -/
def NoZeroHash (P : Primitives) : Prop := ∀ b, P.sha384 (statementBodyText 8 b) ≠ zeroHash

/-- The digest of a published entry is a hash and no genesis link. -/
theorem LogIntact.digest {s : StoreState} (h : LogIntact P s) (hzero : NoZeroHash P) {i : Nat}
    {e : OutboxEntry} (he : s.outbox[i]? = some e) (hwire : e.wire.isSome = true) :
    e.digest.length = 48 ∧ e.digest ≠ zeroHash := by
  obtain ⟨wire, hwire⟩ := Option.isSome_iff_exists.mp hwire
  obtain ⟨receipt, hreceipt⟩ := h.chained i e wire he hwire
  obtain ⟨-, b, -, hb⟩ := verificationReceiptV2Digest_eq_ok_iff.mp hreceipt.digest
  rw [statementBodyDigestV2_eq hb]
  exact ⟨P.length_sha384 _, hzero b⟩

theorem numbered_digests (es : List OutboxEntry) :
    es.zipIdx.map (fun e => ((e.2 : Int) + 1, e.1.digest)) = numbered (es.map (·.digest)).reverse := by
  induction es using List.reverseRecOn with
  | nil => rfl
  | append_singleton es e ih =>
    rw [List.zipIdx_append, List.map_append, ih, List.map_append, List.reverse_append]
    simp only [List.zipIdx_cons, List.zipIdx_nil, List.map_cons, List.map_nil, List.reverse_cons,
      List.reverse_nil, List.nil_append, List.cons_append, numbered, List.length_reverse,
      List.length_map, Nat.zero_add]

/-- Behind published entries the head of the log is valid. -/
theorem validateReceiptHead_outbox {s : StoreState} (hlog : LogIntact P s) (hseal : StoreSealed P s)
    (hzero : NoZeroHash P) {n : Nat} (hpublished : PublishedTo s n) (hn : n ≤ s.outbox.length)
    (hroom : (n : Int) ≤ maxSafe) (hhex : lowerHex s.logId = true) :
    validateReceiptHead (outboxHead s n) = .ok () := by
  have hid : validV2Id (outboxHead s n).verifierId = true := validV2Id_of_keyIdV2 P hseal.key
  have hdigests : ∀ d ∈ ((s.outbox.take n).map (·.digest)).reverse,
      d.length = 48 ∧ d ≠ zeroHash := by
    intro d hd
    obtain ⟨e, he, rfl⟩ := List.mem_map.mp (List.mem_reverse.mp hd)
    obtain ⟨i, hi⟩ := List.getElem?_of_mem he
    have hlt : i < n := by
      have := (List.getElem?_eq_some_iff.mp hi).1
      rw [List.length_take] at this
      omega
    rw [List.getElem?_take_of_lt hlt] at hi
    exact hlog.digest hzero hi (hpublished i e hlt hi)
  have hlength : (((s.outbox.take n).map (·.digest)).reverse.length : Int) = n := by
    rw [List.length_reverse, List.length_map, List.length_take, min_eq_left hn]
  have hhash : (outboxHead s n).headHash
      = ((s.outbox.take n).map (·.digest)).reverse.headD zeroHash := by
    cases n with
    | zero => rfl
    | succ n =>
      have hentry : s.outbox[n]? = some s.outbox[n] := List.getElem?_eq_getElem (by omega)
      rw [List.take_add_one, hentry, List.map_append, List.reverse_append]
      simp only [outboxHead, Nat.succ_ne_zero, ↓reduceIte, Nat.add_one_sub_one, hentry]
      rfl
  have hvalid := validateHead_numbered (genesis_valid_iff.mpr ⟨hseal.logId, hhex⟩)
    (fun d hd => (hdigests d hd).1) (fun d hd => (hdigests d hd).2) (hlength ▸ hroom)
  rw [validateReceiptHead, if_neg (by rw [hid]; simp)]
  rw [hlength, ← numbered_digests, ← hhash] at hvalid
  exact hvalid

/-! ## Publishing one entry -/

/-- Every request is answered with a signature that verifies under the key. -/
def SignerWorks (P : Primitives) (key : HybridPublicKey)
    (sign : V2ObjectType → Bytes → V2SignResult HybridSignature) : Prop :=
  ∀ body, ∃ signature,
    sign .verificationReceipt (v2SigningMessage P .verificationReceipt body) = .ok signature
      ∧ verifyV2Statement P .verificationReceipt body signature key = .ok ()

theorem SignerWorks.signs {key : HybridPublicKey} {id : String}
    {sign : V2ObjectType → Bytes → V2SignResult HybridSignature} (h : SignerWorks P key sign)
    (hkey : keyIdV2 P key = .ok id) (body : Bytes) :
    ∃ signature, signV2StatementWithSigner P .verificationReceipt body { publicKey := key, sign }
      = .ok signature ∧ SignatureLengths signature := by
  obtain ⟨signature, hsign, hverify⟩ := h body
  refine ⟨signature, ?_, signature_lengths_of_verifyV2Statement P hverify⟩
  simp only [signV2StatementWithSigner, hkey, hsign, hverify]

/-- What the log can take at position `i`: a position of the safe range, for a claim
of the store's verifier. -/
structure Publishable (s : StoreState) (i : Nat) : Prop where
  room : (i : Int) < maxSafe
  verifier : ∀ (e : OutboxEntry) (r : ClaimRecord), s.outbox[i]? = some e →
    s.claims.get? e.claimId = some r → r.claim.verifierId = s.verifierId

/-- A publication changes nothing but the log. -/
structure LogOnly (s t : StoreState) : Prop where
  claims : t.claims = s.claims
  verifierKey : t.verifierKey = s.verifierKey
  verifierId : t.verifierId = s.verifierId
  logId : t.logId = s.logId
  logFrozen : t.logFrozen = s.logFrozen
  signerFailure : t.signerFailure = s.signerFailure

theorem LogOnly.refl (s : StoreState) : LogOnly s s := ⟨rfl, rfl, rfl, rfl, rfl, rfl⟩

theorem LogOnly.trans {s t u : StoreState} (h₁ : LogOnly s t) (h₂ : LogOnly t u) : LogOnly s u :=
  ⟨h₂.claims.trans h₁.claims, h₂.verifierKey.trans h₁.verifierKey,
    h₂.verifierId.trans h₁.verifierId, h₂.logId.trans h₁.logId,
    h₂.logFrozen.trans h₁.logFrozen, h₂.signerFailure.trans h₁.signerFailure⟩

theorem EntriesAcknowledged.logOnly {s t : StoreState} (h : EntriesAcknowledged s t) :
    LogOnly s t := by
  rw [h.state]
  exact ⟨rfl, rfl, rfl, rfl, rfl, rfl⟩

theorem PublishOutcome.logOnly {claimId : String} {body : Bytes}
    {sign : V2ObjectType → Bytes → V2SignResult HybridSignature} {s t : StoreState}
    {r : V2StoreResult Bytes} (h : PublishOutcome P claimId body sign s t r) : LogOnly s t := by
  cases h with
  | refused => exact .refl s
  | original => exact .refl s
  | @appended _ _ _ _ _ u _ hnew hsubmitted =>
    have happended : LogOnly s u := by
      rw [hnew.state]
      exact ⟨rfl, rfl, rfl, rfl, rfl, rfl⟩
    rcases hsubmitted with rfl | hack
    · exact happended
    · exact happended.trans hack.logOnly

/-- The position of an entry is the one its claim was committed at. -/
theorem LogIntact.committedIndex_entry {s : StoreState} (h : LogIntact P s) {i : Nat}
    {e : OutboxEntry} (he : s.outbox[i]? = some e) :
    committedIndex s e.claimId e.body = some i := by
  obtain ⟨r, hr⟩ := h.committed i e he
  have hlt := (List.getElem?_eq_some_iff.mp he).1
  simp only [committedIndex, hr.found, hr.terminal, hr.body, and_self, ↓reduceIte, hr.position,
    Option.filter_some, hlt, decide_true]

/-- The next waiting entry is published when the log can take it. -/
theorem publishV2Receipt_next (haccepts : AnchorAccepts anchor) (hzero : NoZeroHash P)
    {sign : V2ObjectType → Bytes → V2SignResult HybridSignature} {s : Anchored ω} {i : Nat}
    {e : OutboxEntry} (hlog : LogIntact P s.store) (hseal : StoreSealed P s.store)
    (hworks : SignerWorks P s.store.verifierKey sign) (hopen : s.store.logFrozen = false)
    (hsigning : s.store.signerFailure = false) (hhex : lowerHex s.store.logId = true)
    (hpublished : PublishedTo s.store i) (he : s.store.outbox[i]? = some e) (hplace : Publishable s.store i) :
    ∃ wire t, publishV2Receipt P anchor e.claimId e.body sign s = (.ok wire, t) := by
  have hindex := hlog.committedIndex_entry he
  have hlt := (List.getElem?_eq_some_iff.mp he).1
  cases hwire : e.wire with
  | some wire =>
    refine ⟨wire, s, ?_⟩
    rw [publishV2Receipt, getStore_bind]
    simp only [hindex, he, Option.bind_some, hwire]
    rfl
  | none =>
  -- the body is of the store's verifier, so it binds to the head of the log
  obtain ⟨r, hr⟩ := hlog.committed i e he
  obtain ⟨b, hb, hverifier⟩ := validateV2FinalizationPayload_verifier
    (hseal.payload e.claimId r hr.found hr.terminal)
  rw [hr.body] at hb
  have hhead := validateReceiptHead_outbox hlog hseal hzero hpublished hlt.le hplace.room.le
    hhex
  have hname : b.verifierId = (outboxHead s.store i).verifierId :=
    hverifier.trans (hplace.verifier e r he hr.found)
  have hdata := decodeVerificationReceiptBodyV2_eq_ok hb
  have hposition := positionValid_atHead b noSignature hhead hplace.room
  have hvalid := (verificationReceiptV2Body_eq_ok_iff.mp hdata).1
  obtain ⟨signable, hsignable⟩ := (wireDocument_receipt hposition
    ((bodyValid_atHead b _ noSignature).mpr hvalid) .signable).exists_canonical
  obtain ⟨signature, hsigns, hlengths⟩ := hworks.signs hseal.key signable
  obtain ⟨wire, hbound⟩ := exists_boundBody hb hhead rfl hplace.room hname hlengths
  have hsigned : signPreparedVerificationReceiptV2WithSigner P e.body (outboxHead s.store i)
      { publicKey := s.store.verifierKey, sign }
        = .ok ((b.atHead (outboxHead s.store i)).signed signature) := by
    refine signPreparedVerificationReceiptV2WithSigner_ok hdata hbound.bound ?_ ?_ hbound.encoded
    · rw [hname]
      exact hseal.key
    · intro body hbody
      have hsame : verificationReceiptV2SignableBytes (b.atHead (outboxHead s.store i))
          = .ok signable := hsignable
      rw [hbody] at hsame
      cases hsame
      exact hsigns
  obtain ⟨hplaced, hbodyValid, -⟩ := encodeVerificationReceiptV2_eq_ok_iff.mp hbound.encoded
  obtain ⟨digest, hdigest⟩ := exists_verificationReceiptV2Digest P hplaced hbodyValid
  have hnext : ¬ (i > 0 ∧ (s.store.outbox[i - 1]?).any (·.wire.isNone) = true) := by
    rintro ⟨hpos, hany⟩
    have ha : s.store.outbox[i - 1]? = some s.store.outbox[i - 1] :=
      List.getElem?_eq_getElem (by omega)
    have hsome := hpublished (i - 1) _ (by omega) ha
    rw [ha, Option.any_some, Option.isNone_iff_eq_none] at hany
    rw [hany] at hsome
    cases hsome
  have happendable : Appendable e.claimId e.body i s.store :=
    { committed := hindex, pending := by rw [he, Option.bind_some, hwire]
      open_ := hopen, next := hnext, signing := hsigning }
  obtain ⟨t, ht, -⟩ := publishV2Receipt_appends haccepts happendable hsigned hbound.encoded hdigest
  exact ⟨wire, t, ht⟩

/-! ## Publishing the log -/

/-- The receipt a publication answers with is the one in the log. -/
theorem PublishOutcome.wire {claimId : String} {body wire : Bytes}
    {sign : V2ObjectType → Bytes → V2SignResult HybridSignature} {s t : StoreState} {i : Nat}
    (hlog : LogIntact P s) (h : PublishOutcome P claimId body sign s t (.ok wire))
    (hindex : committedIndex s claimId body = some i) :
    ∃ e, t.outbox[i]? = some e ∧ e.wire = some wire := by
  cases h with
  | original hcommitted hfound happended =>
    obtain rfl := Option.some.inj (hcommitted.symm.trans hindex)
    exact ⟨_, hfound, happended⟩
  | @appended index _ _ digest entry u _ hnew hsubmitted =>
    obtain rfl := Option.some.inj (hnew.committed.symm.trans hindex)
    have hput : u.outbox[index]? = some { entry with wire := some wire, digest } := by
      rw [hnew.state, List.getElem?_modify, hnew.entry]
      simp
    rcases hsubmitted with rfl | hack
    · exact ⟨_, hput, rfl⟩
    · have hextends := (hack.ackStep (hlog.afterAppended hnew)).logExtends hack.unfrozen
      obtain ⟨e, he, hext⟩ := hextends.kept index _ hput
      exact ⟨e, he, (hext.published wire rfl).1⟩

/-- The calls that publish the first `n` entries, in log order. -/
def publishCalls (sign : V2ObjectType → Bytes → V2SignResult HybridSignature) (s : StoreState)
    (n : Nat) : List StoreCall :=
  (s.outbox.take n).map fun e => .publish e.claimId e.body sign

/-- A publication was answered with the receipt at place `i` of the log. -/
def AnsweredAt (s : StoreState) (i : Nat) (event : StoreEvent) : Prop :=
  ∃ e wire receipt, s.outbox[i]? = some e ∧ e.wire = some wire
    ∧ event.2 = .ok (.published wire) ∧ decodeVerificationReceiptV2 wire = .ok receipt
    ∧ receipt.logId = s.logId ∧ receipt.sequence = (i : Int) + 1
    ∧ verificationReceiptV2Body receipt = .ok e.body

theorem AnsweredAt.extends {s t : StoreState} {i : Nat} {event : StoreEvent}
    (h : AnsweredAt s i event) (hextends : LogExtends s t) : AnsweredAt t i event := by
  obtain ⟨e, wire, receipt, he, hwire, hanswer, hdecode, hlog, hsequence, hbody⟩ := h
  obtain ⟨e', he', hext⟩ := hextends.kept i e he
  refine ⟨e', wire, receipt, he', (hext.published wire hwire).1, hanswer, hdecode, ?_, hsequence,
    ?_⟩
  · rw [hlog, hextends.log]
  · rw [hbody, hext.body]

/-- The first `n` entries publish in log order: every call is answered with the
receipt that then stands at its place of the log. -/
structure PublishesInOrder (P : Primitives) (anchor : StoreAnchor ω)
    (sign : V2ObjectType → Bytes → V2SignResult HybridSignature) (s : Anchored ω) (n : Nat)
    (events : List StoreEvent) (t : Anchored ω) : Prop where
  run : StoreRun P anchor s events t
  calls : events.map Prod.fst = publishCalls sign s.store n
  answers : ∀ (i : Nat) (event : StoreEvent), events[i]? = some event →
    AnsweredAt t.store i event

theorem PublishesInOrder.length {sign : V2ObjectType → Bytes → V2SignResult HybridSignature}
    {s t : Anchored ω} {n : Nat} {events : List StoreEvent}
    (h : PublishesInOrder P anchor sign s n events t) (hn : n ≤ s.store.outbox.length) :
    events.length = n := by
  have hcalls := congrArg List.length h.calls
  rw [List.length_map, publishCalls, List.length_map, List.length_take, min_eq_left hn] at hcalls
  exact hcalls

/-- After the calls the entries are published. -/
theorem PublishesInOrder.publishedTo {s t : Anchored ω} {n : Nat} {events : List StoreEvent}
    {sign : V2ObjectType → Bytes → V2SignResult HybridSignature}
    (h : PublishesInOrder P anchor sign s n events t) (hn : n ≤ s.store.outbox.length) :
    PublishedTo t.store n := by
  intro i e hi he
  have hlt : i < events.length := h.length hn ▸ hi
  have hevent := List.getElem?_eq_getElem hlt
  obtain ⟨e', wire, -, he', hwire, -⟩ := h.answers i _ hevent
  obtain rfl := Option.some.inj (he.symm.trans he')
  rw [hwire]
  rfl

/-- The calls change nothing but the log. -/
theorem PublishesInOrder.logOnly {s t : Anchored ω} {n : Nat} {events : List StoreEvent}
    {sign : V2ObjectType → Bytes → V2SignResult HybridSignature}
    (h : PublishesInOrder P anchor sign s n events t) : LogOnly s.store t.store := by
  have hpublish : ∀ call ∈ events.map Prod.fst, ∃ id body, call = .publish id body sign := by
    rw [h.calls, publishCalls]
    intro call hcall
    obtain ⟨e, -, rfl⟩ := List.mem_map.mp hcall
    exact ⟨e.claimId, e.body, rfl⟩
  obtain ⟨run, -, -⟩ := h
  induction run with
  | nil => exact .refl _
  | @snoc events t u event _ hlast ih =>
    obtain ⟨id, body, hcall⟩ := hpublish event.1 (by simp)
    have hkept := ih fun call hcall => hpublish call (by
      rw [List.map_append]
      exact List.mem_append_left _ hcall)
    obtain ⟨call, r⟩ := event
    simp only at hcall
    subst hcall
    obtain ⟨r', hpublished, -⟩ := reply_eq hlast
    exact hkept.trans (publishV2Receipt_cases hpublished).logOnly

theorem StoreRun.sealed {s t : Anchored ω} {events : List StoreEvent} (hlog : LogIntact P s.store)
    (htimes : TimesKept s.store) (hseal : StoreSealed P s.store)
    (run : StoreRun P anchor s events t) : StoreSealed P t.store :=
  (run.invariant
    (fun t => LogIntact P t.store ∧ TimesKept t.store ∧ StoreSealed P t.store)
    ⟨hlog, htimes, hseal⟩ fun _ _ _ ⟨hlog, htimes, hseal⟩ hlast =>
      have heffect := perform_effect hlast
      ⟨hlog.step htimes heffect, htimes.step heffect, hseal.step hlog heffect⟩).2.2

/-- The verifier of a store never changes. -/
theorem CallEffect.verifierId {call : StoreCall} {r : V2StoreResult StoreReply} {s t : StoreState}
    (h : CallEffect P call s r t) : t.verifierId = s.verifierId := by
  cases h with
  | quiet hquiet _ => rcases hquiet with rfl | ⟨-, rfl⟩ <;> rfl
  | created hnew => rw [hnew.state]; rfl
  | progressed hnew => rw [hnew.state]; rfl
  | finalized hnew => rw [hnew.state]; rfl
  | recovered hnew => rw [hnew.state]; rfl
  | released hnew => rw [hnew.state]
  | appended hnew hsubmitted =>
    rcases hsubmitted with rfl | hack
    · rw [hnew.state]
    · rw [hack.logOnly.verifierId, hnew.state]
  | acknowledged hnew => rw [hnew.state]; rfl
  | forked => rfl
  | timeSet => rfl
  | signerSet => rfl
  | withheldSet hsubmitted =>
    rcases hsubmitted with rfl | hack
    · rfl
    · exact hack.logOnly.verifierId
  | rateEnabled => rfl
  | abandoned => rfl

theorem StoreRun.verifierId {s t : Anchored ω} {events : List StoreEvent}
    (run : StoreRun P anchor s events t) : t.store.verifierId = s.store.verifierId :=
  run.invariant (fun t => t.store.verifierId = s.store.verifierId) rfl
    fun _ _ _ h hlast => (perform_effect hlast).verifierId.trans h

/-- The place an entry takes does not depend on what is published. -/
theorem Publishable.of_logOnly {s t : StoreState} {i : Nat} (h : Publishable s i)
    (hlog : LogOnly s t) (hextends : LogExtends s t) (hi : i < s.outbox.length) :
    Publishable t i := by
  refine { room := h.room, verifier := ?_ }
  intro e r he hr
  have he₀ : s.outbox[i]? = some s.outbox[i] := List.getElem?_eq_getElem hi
  obtain ⟨e', he', hext⟩ := hextends.kept i _ he₀
  obtain rfl := Option.some.inj (he.symm.trans he')
  rw [hlog.claims, hext.claimId] at hr
  rw [hlog.verifierId]
  exact h.verifier _ r he₀ hr

/-- The entries whose claims the log can take publish in log order. -/
theorem exists_publishesInOrder (haccepts : AnchorAccepts anchor) (hzero : NoZeroHash P)
    {sign : V2ObjectType → Bytes → V2SignResult HybridSignature} {s : Anchored ω}
    (hlog : LogIntact P s.store) (htimes : TimesKept s.store) (hseal : StoreSealed P s.store)
    (hworks : SignerWorks P s.store.verifierKey sign) (hopen : s.store.logFrozen = false)
    (hsigning : s.store.signerFailure = false) (hhex : lowerHex s.store.logId = true) {n : Nat}
    (hn : n ≤ s.store.outbox.length)
    (hplace : ∀ i < n, Publishable s.store i) :
    ∃ events t, PublishesInOrder P anchor sign s n events t := by
  induction n with
  | zero =>
    exact ⟨[], s, { run := .nil, calls := rfl, answers := by simp }⟩
  | succ n ih =>
    obtain ⟨events, t, h⟩ := ih (by omega) fun i hi => hplace i (by omega)
    obtain ⟨hlog', htimes'⟩ := StoreRun.logIntact hlog htimes h.run
    have hextends := StoreRun.logExtends hlog htimes h.run
    have hkept := h.logOnly
    have he : s.store.outbox[n]? = some s.store.outbox[n] := List.getElem?_eq_getElem (by omega)
    obtain ⟨e, he', hext⟩ := hextends.kept n _ he
    obtain ⟨wire, u, hcall⟩ := publishV2Receipt_next haccepts hzero hlog'
      (StoreRun.sealed hlog htimes hseal h.run) (by rw [hkept.verifierKey]; exact hworks)
      (hkept.logFrozen.trans hopen) (hkept.signerFailure.trans hsigning)
      (by rw [hkept.logId]; exact hhex) (h.publishedTo (by omega)) he'
      ((hplace n (by omega)).of_logOnly hkept hextends (by omega))
    have hperforms : Performs P anchor t (.publish e.claimId e.body sign, .ok (.published wire)) u :=
      performs_of_apply rfl hcall
    have hlast := StoreRun.logExtends hlog' htimes' (.single hperforms)
    obtain ⟨hlog'', -⟩ := StoreRun.logIntact hlog' htimes' (.single hperforms)
    refine ⟨events ++ [(.publish e.claimId e.body sign, .ok (.published wire))], u,
      { run := h.run.snoc hperforms, calls := ?_, answers := ?_ }⟩
    · rw [List.map_append, h.calls, publishCalls, publishCalls, List.take_add_one, he,
        List.map_append, hext.claimId, hext.body]
      rfl
    · intro i event hevent
      rcases getElem?_append_singleton hevent with ⟨-, hevent⟩ | ⟨hi, rfl⟩
      · exact (h.answers i event hevent).extends hlast
      · rw [h.length (by omega)] at hi
        subst hi
        obtain ⟨e'', he'', hwire⟩ := (publishV2Receipt_cases hcall).wire hlog'
          (hlog'.committedIndex_entry he')
        obtain ⟨receipt, hreceipt⟩ := hlog''.chained _ e'' wire he'' hwire
        exact ⟨e'', wire, receipt, he'', hwire, rfl,
          decodeVerificationReceiptV2_encode hreceipt.encoded, hreceipt.log, hreceipt.sequence,
          hreceipt.body⟩

/-- A published entry is one the log could take. -/
theorem publishable_of_published {s : StoreState} (hlog : LogIntact P s) (hseal : StoreSealed P s)
    {i : Nat} {e : OutboxEntry} (he : s.outbox[i]? = some e) (hwire : e.wire.isSome = true) :
    Publishable s i := by
  obtain ⟨wire, hw⟩ := Option.isSome_iff_exists.mp hwire
  obtain ⟨receipt, hreceipt⟩ := hlog.chained i e wire he hw
  obtain ⟨hposition, -⟩ := encodeVerificationReceiptV2_eq_ok_iff.mp hreceipt.encoded
  refine { room := ?_, verifier := ?_ }
  · have hle := hposition.sequence_le
    rw [hreceipt.sequence] at hle
    omega
  · intro e' r he' hr
    obtain rfl := Option.some.inj (he.symm.trans he')
    obtain ⟨r', hr'⟩ := hlog.committed i e he
    obtain rfl := Option.some.inj (hr.symm.trans hr'.found)
    obtain ⟨b, hb, hverifier⟩ := validateV2FinalizationPayload_verifier
      (hseal.payload e.claimId r hr hr'.terminal)
    obtain ⟨b', hb', hown⟩ := hseal.owned i e he hwire
    rw [hr'.body, hb'] at hb
    cases hb
    exact hverifier.symm.trans hown

/-- A store as it is created, after any run. -/
theorem StoreRun.reached {now leaseSeconds : Int} {logId : String} {verifierKey : HybridPublicKey}
    {start : StoreState} {device : ω} {events : List StoreEvent} {s : Anchored ω}
    (hnew : StoreState.new P now leaseSeconds logId verifierKey = .ok start)
    (run : StoreRun P anchor { store := start, device } events s) :
    LogIntact P s.store ∧ TimesKept s.store ∧ StoreSealed P s.store := by
  obtain ⟨verifierId, hkey, -, hlength, hstart⟩ := StoreState.new_eq_ok hnew
  have hclaims : start.claims = .empty := by rw [hstart]
  have houtbox : start.outbox = [] := by rw [hstart]
  have hlog : LogIntact P start := .initial hclaims houtbox
  have htimes : TimesKept start := by
    intro id r hr
    rw [hclaims] at hr
    cases hr
  have hseal : StoreSealed P start := by
    refine .initial hclaims houtbox ?_ ?_
    · rw [hstart]
      exact hkey
    · rw [hstart]
      exact hlength
  obtain ⟨hlog', htimes'⟩ := StoreRun.logIntact hlog htimes run
  exact ⟨hlog', htimes', StoreRun.sealed hlog htimes hseal run⟩

/-- In every state a new store reaches, every terminal claim stands at its place of
the log with its body, and with a working signer the log publishes in order up to
any place exactly when it can take every claim up to there. -/
structure LogPublishes (P : Primitives) (anchor : StoreAnchor ω) (s : Anchored ω) : Prop where
  placed : ∀ (id : String) (r : ClaimRecord), s.store.claims.get? id = some r →
    r.state = .terminal → ∃ i e, r.outboxIndex = some i ∧ s.store.outbox[i]? = some e
      ∧ e.claimId = id ∧ e.body = r.receiptBody
  inOrder : ∀ (sign : V2ObjectType → Bytes → V2SignResult HybridSignature) (n : Nat),
    SignerWorks P s.store.verifierKey sign → n ≤ s.store.outbox.length →
    ((∃ events t, PublishesInOrder P anchor sign s n events t)
      ↔ ∀ i < n, Publishable s.store i)

theorem LogIntact.publishes (haccepts : AnchorAccepts anchor) (hzero : NoZeroHash P)
    {s : Anchored ω} (hlog : LogIntact P s.store) (htimes : TimesKept s.store)
    (hseal : StoreSealed P s.store) (hopen : s.store.logFrozen = false)
    (hsigning : s.store.signerFailure = false) (hhex : lowerHex s.store.logId = true) :
    LogPublishes P anchor s := by
  refine { placed := ?_, inOrder := ?_ }
  · intro id r hr hterminal
    obtain ⟨i, e, hi, he, hid⟩ := hlog.positioned id r hr hterminal
    obtain ⟨r', hr'⟩ := hlog.committed i e he
    have hfound := hr'.found
    rw [hid, hr] at hfound
    obtain rfl := Option.some.inj hfound
    exact ⟨i, e, hi, he, hid, hr'.body.symm⟩
  · intro sign n hworks hn
    constructor
    · intro ⟨events, t, h⟩ i hi
      have hextends := StoreRun.logExtends hlog htimes h.run
      obtain ⟨hlog', -⟩ := StoreRun.logIntact hlog htimes h.run
      have he : s.store.outbox[i]? = some s.store.outbox[i] := List.getElem?_eq_getElem (by omega)
      obtain ⟨e, he', hext⟩ := hextends.kept i _ he
      have hplace := publishable_of_published hlog' (StoreRun.sealed hlog htimes hseal h.run) he'
        (h.publishedTo hn i e hi he')
      refine { room := hplace.room, verifier := fun e₀ r he₀ hr => ?_ }
      obtain rfl := Option.some.inj (he.symm.trans he₀)
      rw [← h.logOnly.verifierId]
      refine hplace.verifier e r he' ?_
      rw [h.logOnly.claims, hext.claimId]
      exact hr
    · intro hplace
      exact exists_publishesInOrder haccepts hzero hlog htimes hseal hworks hopen hsigning hhex hn
        hplace

/-- A prepared body that decodes can be published at every open head of its
verifier's log, and every reached log publishes its committed bodies in order. -/
theorem committedReceipts_publish (hzero : NoZeroHash P) :
    (∀ (data : Bytes) (head : ReceiptV2Head) (r : VerificationReceiptV2)
      (signature : HybridSignature), decodeVerificationReceiptBodyV2 data = .ok r →
      validateReceiptHead head = .ok () → head.frozen = false → head.sequence < maxSafe →
      r.verifierId = head.verifierId → SignatureLengths signature →
      ∃ wire, BoundBody data head r signature wire)
    ∧ ∀ (ω : Type) (anchor : StoreAnchor ω) (now leaseSeconds : Int) (logId : String)
      (verifierKey : HybridPublicKey) (start : StoreState) (device : ω)
      (events : List StoreEvent) (s : Anchored ω), AnchorAccepts anchor →
      StoreState.new P now leaseSeconds logId verifierKey = .ok start →
      StoreRun P anchor { store := start, device } events s → lowerHex s.store.logId = true →
      s.store.logFrozen = false → s.store.signerFailure = false → LogPublishes P anchor s := by
  constructor
  · intro data head r signature hdecode hhead hopen hroom hverifier hsignature
    exact exists_boundBody hdecode hhead hopen hroom hverifier hsignature
  · intro ω anchor now leaseSeconds logId verifierKey start device events s haccepts hnew run hhex
      hopen hsigning
    obtain ⟨hlog, htimes, hseal⟩ := StoreRun.reached hnew run
    exact hlog.publishes haccepts hzero htimes hseal hopen hsigning hhex

/-! ## Two claims, recovered after their leases -/

theorem noZeroHash_counting {table : List Bytes} (h : table.length ≤ 65534) :
    NoZeroHash (counting ([] :: table)) := by
  intro b
  refine tableDigest_ne_zero h fun hnil => ?_
  have hcode : u16BeBytes 8 = [] := (List.append_eq_nil_iff.mp (List.append_eq_nil_iff.mp hnil).1).2
  cases hcode

theorem signerWorks_counting : SignerWorks (counting [[]]) (tabledKey 1)
    fun _ _ => .ok tabledSignature := fun body =>
  ⟨tabledSignature, rfl, (accepting_counting [[]]).verify _ body 1⟩

theorem lowerHex_firstStore : lowerHex firstStore.logId = true := by decide

/-- The first claim made for another verifier, under a key of its own. -/
def claimOf (epoch : Int) (n : UInt8) : V2ChallengeClaim :=
  { firstClaim with
    claimId := ((protocolClaimIdFromDigestV2 (counting [[]]) "n" epoch
      (List.replicate 48 0)).toOption).getD ""
    replayEpoch := epoch, verifierId := hexEncode (n :: List.replicate 31 0) }

def claimRecordOf (epoch : Int) (n : UInt8) : ClaimRecord :=
  newClaimRecord (claimOf epoch n) ((counting [[]]).sha256 firstToken) 160 100

theorem claimOf_wellFormed (epoch : Int) (n : UInt8) : SealedWellFormed (claimOf epoch n) :=
  { firstClaim_wellFormed with verifierId := hexEncode_first n }

theorem claimOf_plain (epoch : Int) (n : UInt8) : PlainClaim (claimOf epoch n) :=
  { sealed := claimOf_wellFormed epoch n, issuer := ⟨_, rfl⟩, scope := rfl, evaluators := rfl }

/-- Two claims of different verifiers wait for their recovery. -/
def twoClaims : StoreState :=
  { firstStore with
    now := 160
    claims := (OrderedMap.empty.insert (claimOf 1 4).claimId (claimRecordOf 1 4)).insert
      (claimOf 2 1).claimId (claimRecordOf 2 1) }

theorem claimOf_ids : (claimOf 1 4).claimId ≠ (claimOf 2 1).claimId :=
  @claimIds_counting [[]] 1 2 ⟨by decide, by decide⟩ ⟨by decide, by decide⟩ (by decide)

/-- A run up to the recovery of both claims. -/
theorem run_twoClaims :
    ∃ events, StoreRun (counting [[]]) (none : StoreAnchor Unit)
      { store := firstStore, device := () } events { store := twoClaims, device := () } := by
  have hone := @performs_claim (counting [[]]) (claimOf 1 4) firstToken firstStore
    ⟨by decide, by decide, by decide⟩
    (claimIdMatchesKey_of_derived _ rfl List.length_replicate rfl) rfl rfl rfl
  have htwo := @performs_claim (counting [[]]) (claimOf 2 1) firstToken
    (insertClaim none (claimRecordOf 1 4) firstStore.ticked) ⟨by decide, by decide, by decide⟩
    (claimIdMatchesKey_of_derived _ rfl List.length_replicate rfl)
    (OrderedMap.get?_insert_of_ne _ _ claimOf_ids.symm) rfl rfl
  have hset : Performs (counting [[]]) (none : StoreAnchor Unit)
      { store := insertClaim none (claimRecordOf 2 1)
          (insertClaim none (claimRecordOf 1 4) firstStore.ticked).ticked, device := () }
      (.setTime 160, .ok .configured) { store := twoClaims, device := () } := rfl
  exact ⟨_, ((Run.single hone).snoc htwo).snoc hset⟩

theorem passed_twoClaims_own :
    LeasePassed (claimOf 2 1).claimId (claimRecordOf 2 1) twoClaims :=
  { ready := ⟨by decide, by decide, by decide⟩
    found := OrderedMap.get?_insert_self _ _ _, evaluating := rfl, leaseExpired := le_refl _ }

theorem passed_twoClaims_foreign :
    LeasePassed (claimOf 1 4).claimId (claimRecordOf 1 4) twoClaims :=
  { ready := ⟨by decide, by decide, by decide⟩
    found := (OrderedMap.get?_insert_of_ne _ _ claimOf_ids).trans (OrderedMap.get?_insert_self _ _ _)
    evaluating := rfl, leaseExpired := le_refl _ }

/-- The committed claim of the store's verifier is published. -/
theorem committedReceipts_publish_own :
    ∃ (events : List StoreEvent) (s : Anchored Unit) (calls : List StoreEvent) (t : Anchored Unit),
      StoreRun (counting [[]]) none { store := firstStore, device := () } events s
        ∧ PublishesInOrder (counting [[]]) none (fun _ _ => .ok tabledSignature) s 1 calls t := by
  obtain ⟨events, run⟩ := run_twoClaims
  obtain ⟨terminal, body, hresult, hpayload⟩ := (claimOf_plain 2 1).passes
  have hrecover := @performs_recover (counting [[]]) (claimRecordOf 2 1) twoClaims terminal body
    passed_twoClaims_own hresult hpayload
  have hrun := run.snoc hrecover
  have hpublishes := (committedReceipts_publish (noZeroHash_counting (Nat.zero_le _))).2 Unit none 100 60
    "00000000000000000000000000000000" (tabledKey 1) firstStore () _ _ AnchorAccepts.none
    ((accepting_counting [[]]).new_firstStore) hrun lowerHex_firstStore rfl rfl
  obtain ⟨calls, t, h⟩ := (hpublishes.inOrder _ 1 signerWorks_counting (by simp [committedState])).mpr
    fun i hi => by
      obtain rfl : i = 0 := by omega
      refine { room := by simp [maxSafe], verifier := fun e r he hr => ?_ }
      cases he
      obtain rfl := Option.some.inj ((OrderedMap.get?_insert_self _ _ _).symm.trans hr)
      rfl
  exact ⟨_, _, calls, t, hrun, h⟩

/-- A committed claim of another verifier blocks the claim behind it for good, with
no anchor, an open log and any signer. -/
theorem ownClaim_blocked :
    ∃ (events : List StoreEvent) (s : Anchored Unit) (r : ClaimRecord),
      StoreRun (counting [[]]) none { store := firstStore, device := () } events s
        ∧ s.store.logFrozen = false ∧ s.store.signerFailure = false
        ∧ lowerHex s.store.logId = true
        ∧ s.store.claims.get? (claimOf 2 1).claimId = some r ∧ r.state = .terminal
        ∧ r.claim.verifierId = s.store.verifierId ∧ r.outboxIndex = some 1
        ∧ ∀ later t, StoreRun (counting [[]]) none s later t →
          ∀ e, t.store.outbox[1]? = some e → e.wire = none := by
  obtain ⟨events, run⟩ := run_twoClaims
  obtain ⟨terminal₁, body₁, hresult₁, hpayload₁⟩ := (claimOf_plain 1 4).passes
  have hfirst := @performs_recover (counting [[]]) (claimRecordOf 1 4) twoClaims terminal₁ body₁
    passed_twoClaims_foreign hresult₁ hpayload₁
  have hpassed : LeasePassed (claimOf 2 1).claimId (claimRecordOf 2 1) (committedState
      (claimOf 1 4).claimId (claimRecordOf 1 4) terminal₁ body₁ 0 false twoClaims) :=
    { ready := ⟨le_refl (160 : Int), passed_twoClaims_own.ready.nonneg,
        passed_twoClaims_own.ready.bounded⟩
      found := (OrderedMap.get?_insert_of_ne _ _ claimOf_ids.symm).trans
        (OrderedMap.get?_insert_self _ _ _)
      evaluating := rfl, leaseExpired := le_refl _ }
  obtain ⟨terminal₂, body₂, hresult₂, hpayload₂⟩ := (claimOf_plain 2 1).passes
  have hsecond := @performs_recover (counting [[]]) (claimRecordOf 2 1) _ terminal₂ body₂ hpassed
    hresult₂ hpayload₂
  have hrun := (run.snoc hfirst).snoc hsecond
  obtain ⟨hlog, htimes, hseal⟩ := StoreRun.reached ((accepting_counting [[]]).new_firstStore) hrun
  refine ⟨_, _, _, hrun, rfl, rfl, lowerHex_firstStore, OrderedMap.get?_insert_self _ _ _, rfl, rfl, rfl, ?_⟩
  intro later t hlater e he
  by_contra hwire
  obtain ⟨hlog', -⟩ := StoreRun.logIntact hlog htimes hlater
  have hseal' := StoreRun.sealed hlog htimes hseal hlater
  -- the entry before it would be published too, for a body of another verifier
  obtain ⟨e₀, he₀, hext⟩ := (StoreRun.logExtends hlog htimes hlater).kept 0
    (committedEntry (claimOf 1 4).claimId body₁) rfl
  have hpublished := hlog'.publishedPrefix 0 1 e₀ e (by omega) he₀ he
    (Option.isSome_iff_ne_none.mpr hwire)
  obtain ⟨b, hb, hown⟩ := hseal'.owned 0 e₀ he₀ hpublished
  obtain ⟨b', hb', hforeign⟩ := validateV2FinalizationPayload_verifier
    (hseal.payload (claimOf 1 4).claimId _ ((OrderedMap.get?_insert_of_ne _ _ claimOf_ids).trans
      (OrderedMap.get?_insert_self _ _ _)) rfl)
  rw [hext.body] at hb
  obtain rfl := Except.ok.inj (hb.symm.trans hb')
  rw [StoreRun.verifierId hlater] at hown
  have hsame : hexEncode (4 :: List.replicate 31 0) = hexEncode (1 :: List.replicate 31 0) :=
    hforeign.symm.trans hown
  exact absurd (hexEncode_injective hsame) (by decide)

end RatifyProtocol.V2
