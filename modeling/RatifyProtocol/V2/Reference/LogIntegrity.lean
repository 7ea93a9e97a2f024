import RatifyProtocol.V2.Reference.ClaimSafety
set_option autoImplicit false

/-!
# Reference store: the receipt log over whole runs

The outbox is the receipt log.  Its entries stand in terminal-commit order, a
prefix of them is published as one hash chain, and a prefix of those is
acknowledged.
-/

namespace RatifyProtocol.V2

open Foundation

variable {ω : Type} {P : Primitives} {anchor : StoreAnchor ω}

/-! ## Signing a prepared body -/

/-- A bound body takes the position after the head. -/
theorem bindVerificationReceiptBodyV2_eq_ok {data : Bytes} {head : ReceiptV2Head}
    {r : VerificationReceiptV2} (h : bindVerificationReceiptBodyV2 data head = .ok r) :
    r.logId = head.logId ∧ r.sequence = head.sequence + 1
      ∧ r.previousReceiptHash = head.headHash := by
  simp only [bindVerificationReceiptBodyV2, bind_eq_ok_iff] at h
  obtain ⟨-, -, -, -, r', -, -, -, -, -, h⟩ := h
  cases h
  exact ⟨rfl, rfl, rfl⟩

/-- A signed receipt is the given one with its signature. -/
theorem signVerificationReceiptV2WithSigner_eq_ok {r out : VerificationReceiptV2}
    {signer : SignerV2} (h : signVerificationReceiptV2WithSigner P r signer = .ok out) :
    ∃ signature, out = { r with signature } := by
  simp only [signVerificationReceiptV2WithSigner, bind_eq_ok_iff] at h
  obtain ⟨-, -, h⟩ := h
  split at h
  · cases h
  split at h
  · cases h
  · simp only [bind_eq_ok_iff] at h
    obtain ⟨-, -, signature, -, -, -, h⟩ := h
    cases h
    exact ⟨signature, rfl⟩

/-- What an appended receipt says of its place in the log. -/
theorem signPreparedVerificationReceiptV2WithSigner_eq_ok {data : Bytes} {head : ReceiptV2Head}
    {signer : SignerV2} {r : VerificationReceiptV2}
    (h : signPreparedVerificationReceiptV2WithSigner P data head signer = .ok r) :
    r.logId = head.logId ∧ r.sequence = head.sequence + 1
      ∧ r.previousReceiptHash = head.headHash ∧ verificationReceiptV2Body r = .ok data := by
  simp only [signPreparedVerificationReceiptV2WithSigner, bind_eq_ok_iff] at h
  obtain ⟨bound, hbound, signed, hsigned, h⟩ := h
  have hbound' : bindVerificationReceiptBodyV2 data head = .ok bound := by
    cases hb : bindVerificationReceiptBodyV2 data head with
    | error e =>
      rw [hb] at hbound
      cases hbound
    | ok b =>
      rw [hb] at hbound
      cases hbound
      rfl
  obtain ⟨hlog, hsequence, hprevious⟩ := bindVerificationReceiptBodyV2_eq_ok hbound'
  obtain ⟨signature, rfl⟩ := signVerificationReceiptV2WithSigner_eq_ok hsigned
  split at h
  · rename_i b hb
    split at h
    · rename_i heq
      cases h
      exact ⟨hlog, hsequence, hprevious, heq ▸ hb⟩
    · cases h
  · cases h

/-! ## The log invariant -/

/-- The digest the entry at `index` links to. -/
def previousDigest (outbox : List OutboxEntry) (index : Nat) : Bytes :=
  if index = 0 then zeroHash else ((outbox[index - 1]?).map (·.digest)).getD zeroHash

/-- The receipt `wire` spells is entry `index` of the hash chain. -/
structure ChainedReceipt (P : Primitives) (logId : String) (outbox : List OutboxEntry)
    (index : Nat) (e : OutboxEntry) (wire : Bytes) (receipt : VerificationReceiptV2) : Prop where
  encoded : encodeVerificationReceiptV2 receipt = .ok wire
  log : receipt.logId = logId
  sequence : receipt.sequence = (index : Int) + 1
  previous : receipt.previousReceiptHash = previousDigest outbox index
  digest : verificationReceiptV2Digest P receipt = .ok e.digest
  body : verificationReceiptV2Body receipt = .ok e.body

/-- The claim an entry was committed for. -/
structure EntryCommitted (claims : OrderedMap String ClaimRecord) (index : Nat) (e : OutboxEntry)
    (r : ClaimRecord) : Prop where
  found : claims.get? e.claimId = some r
  terminal : r.state = .terminal
  position : r.outboxIndex = some index
  body : r.receiptBody = e.body
  finalized : ∀ ack, e.ack = some ack → r.finalizedAt ≤ ack.timestamp

/-- What holds of the log in every state. -/
structure LogIntact (P : Primitives) (s : StoreState) : Prop where
  publishedPrefix : ∀ (i j : Nat) (a b : OutboxEntry), i < j → s.outbox[i]? = some a →
    s.outbox[j]? = some b → b.wire.isSome = true → a.wire.isSome = true
  acknowledgedPrefix : ∀ (i j : Nat) (a b : OutboxEntry), i < j → s.outbox[i]? = some a →
    s.outbox[j]? = some b → b.ack.isSome = true → a.ack.isSome = true
  acknowledgedPublished : ∀ (i : Nat) (e : OutboxEntry), s.outbox[i]? = some e →
    e.ack.isSome = true → e.wire.isSome = true
  chained : ∀ (i : Nat) (e : OutboxEntry) (wire : Bytes), s.outbox[i]? = some e →
    e.wire = some wire → ∃ receipt, ChainedReceipt P s.logId s.outbox i e wire receipt
  named : ∀ (i : Nat) (e : OutboxEntry) (ack : V2CheckpointAcknowledgement),
    s.outbox[i]? = some e → e.ack = some ack → ack.logId = s.logId
      ∧ ack.sequence = (i : Int) + 1 ∧ ack.entryHash = e.digest ∧ ack.timestamp ≤ s.highWater
  ordered : ∀ (i j : Nat) (a b : OutboxEntry) (x y : V2CheckpointAcknowledgement), i < j →
    s.outbox[i]? = some a → s.outbox[j]? = some b → a.ack = some x → b.ack = some y →
      x.timestamp ≤ y.timestamp
  committed : ∀ (i : Nat) (e : OutboxEntry), s.outbox[i]? = some e →
    ∃ r, EntryCommitted s.claims i e r
  positioned : ∀ (id : String) (r : ClaimRecord), s.claims.get? id = some r →
    r.state = .terminal → ∃ i e, r.outboxIndex = some i ∧ s.outbox[i]? = some e
      ∧ e.claimId = id

theorem LogIntact.initial {s : StoreState} (hclaims : s.claims = .empty)
    (houtbox : s.outbox = []) : LogIntact P s := by
  have hnone : ∀ (i : Nat) (e : OutboxEntry), ¬ s.outbox[i]? = some e := by
    intro i e h
    rw [houtbox] at h
    cases h
  refine
    { publishedPrefix := fun i j a b _ h => absurd h (hnone i a)
      acknowledgedPrefix := fun i j a b _ h => absurd h (hnone i a)
      acknowledgedPublished := fun i e h => absurd h (hnone i e)
      chained := fun i e wire h => absurd h (hnone i e)
      named := fun i e ack h => absurd h (hnone i e)
      ordered := fun i j a b x y _ h => absurd h (hnone i a)
      committed := fun i e h => absurd h (hnone i e)
      positioned := ?_ }
  intro id r h
  rw [hclaims] at h
  cases h

/-! ## Steps that leave the log as it is -/

theorem EntryCommitted.kept {s t : StoreState} {i : Nat} {e : OutboxEntry} {r : ClaimRecord}
    (h : EntryCommitted s.claims i e r) (hclaims : ClaimsKept s t) :
    ∃ r', EntryCommitted t.claims i e r' := by
  obtain ⟨r', hr', hsame⟩ := hclaims.after h.found
  refine ⟨r', ?_⟩
  rw [hsame] at hr' ⊢
  exact
    { found := hr', terminal := h.terminal, position := h.position, body := h.body,
      finalized := h.finalized }

/-- A step that changes neither the log nor a claim's sealed or terminal fields. -/
theorem LogIntact.kept {s t : StoreState} (h : LogIntact P s) (houtbox : t.outbox = s.outbox)
    (hlog : t.logId = s.logId) (hclock : s.highWater ≤ t.highWater) (hclaims : ClaimsKept s t) :
    LogIntact P t := by
  refine
    { publishedPrefix := by rw [houtbox]; exact h.publishedPrefix
      acknowledgedPrefix := by rw [houtbox]; exact h.acknowledgedPrefix
      acknowledgedPublished := by rw [houtbox]; exact h.acknowledgedPublished
      chained := by rw [houtbox, hlog]; exact h.chained
      named := ?_
      ordered := by rw [houtbox]; exact h.ordered
      committed := ?_, positioned := ?_ }
  · intro i e ack he hack
    rw [houtbox] at he
    obtain ⟨h₁, h₂, h₃, h₄⟩ := h.named i e ack he hack
    exact ⟨h₁.trans hlog.symm, h₂, h₃, le_trans h₄ hclock⟩
  · intro i e he
    rw [houtbox] at he
    obtain ⟨r, hr⟩ := h.committed i e he
    exact hr.kept hclaims
  · intro id r hr hterminal
    obtain ⟨r₀, hr₀, hsame⟩ := hclaims.before hr
    rw [houtbox]
    rw [hsame] at hterminal ⊢
    exact h.positioned id r₀ hr₀ hterminal

/-- A step that adds a claim. -/
theorem LogIntact.afterCreated {claim : V2ChallengeClaim} {token : Bytes}
    {advance : Option (StreamKey × Int)} {s t : StoreState} (h : LogIntact P s)
    (hnew : ClaimCreated P claim token advance s t) : LogIntact P t := by
  obtain rfl := hnew.state
  refine
    { publishedPrefix := h.publishedPrefix
      acknowledgedPrefix := h.acknowledgedPrefix
      acknowledgedPublished := h.acknowledgedPublished
      chained := h.chained
      named := ?_
      ordered := h.ordered
      committed := ?_, positioned := ?_ }
  · intro i e ack he hack
    obtain ⟨h₁, h₂, h₃, h₄⟩ := h.named i e ack he hack
    exact ⟨h₁, h₂, h₃, le_trans h₄ hnew.ready.notRegressed⟩
  · intro i e he
    obtain ⟨r, hr⟩ := h.committed i e he
    refine ⟨r, { hr with found := ?_ }⟩
    rw [← hr.found]
    apply OrderedMap.get?_insert_of_ne
    intro heq
    have hunused := (congrArg s.claims.get? heq).trans hnew.unused
    exact absurd (hr.found.symm.trans hunused) nofun
  · intro id r hr hterminal
    simp only [insertClaim, OrderedMap.get?_insert] at hr
    split at hr
    · cases hr
      cases hterminal
    · exact h.positioned id r hr hterminal

/-! ## A terminal commit -/

theorem getElem?_append_singleton {α : Type} {xs : List α} {x y : α} {i : Nat}
    (h : (xs ++ [x])[i]? = some y) :
    (i < xs.length ∧ xs[i]? = some y) ∨ (i = xs.length ∧ y = x) := by
  by_cases hi : i < xs.length
  · rw [List.getElem?_append_left hi] at h
    exact .inl ⟨hi, h⟩
  · rw [List.getElem?_append_right (not_lt.mp hi)] at h
    obtain ⟨h₀, hx⟩ := List.getElem?_eq_some_iff.mp h
    have hlen : i - xs.length < 1 := h₀
    exact .inr ⟨by omega, by simpa using hx.symm⟩

theorem previousDigest_append {outbox : List OutboxEntry} {e : OutboxEntry} {index : Nat}
    (h : index < outbox.length) :
    previousDigest (outbox ++ [e]) index = previousDigest outbox index := by
  simp only [previousDigest]
  rw [List.getElem?_append_left (by omega)]

/-- A step that commits a claim. -/
theorem LogIntact.afterCommitted {claimId : String} {record : ClaimRecord}
    {terminal body : Bytes} {horizon : Int} {admitted : Bool} {s t : StoreState}
    (h : LogIntact P s)
    (hnew : TerminalCommitted claimId record terminal body horizon admitted s t) :
    LogIntact P t := by
  obtain rfl := hnew.state
  have hpending : (committedEntry claimId body).wire.isSome = false := rfl
  have hunacked : (committedEntry claimId body).ack.isSome = false := rfl
  refine
    { publishedPrefix := ?_, acknowledgedPrefix := ?_, acknowledgedPublished := ?_
      chained := ?_, named := ?_, ordered := ?_, committed := ?_, positioned := ?_ }
  · intro i j a b hij ha hb hwire
    rcases getElem?_append_singleton hb with ⟨hj, hb⟩ | ⟨-, rfl⟩
    · rcases getElem?_append_singleton ha with ⟨-, ha⟩ | ⟨hi, -⟩
      · exact h.publishedPrefix i j a b hij ha hb hwire
      · omega
    · rw [hpending] at hwire
      cases hwire
  · intro i j a b hij ha hb hack
    rcases getElem?_append_singleton hb with ⟨hj, hb⟩ | ⟨-, rfl⟩
    · rcases getElem?_append_singleton ha with ⟨-, ha⟩ | ⟨hi, -⟩
      · exact h.acknowledgedPrefix i j a b hij ha hb hack
      · omega
    · rw [hunacked] at hack
      cases hack
  · intro i e he hack
    rcases getElem?_append_singleton he with ⟨-, he⟩ | ⟨-, rfl⟩
    · exact h.acknowledgedPublished i e he hack
    · rw [hunacked] at hack
      cases hack
  · intro i e wire he hwire
    rcases getElem?_append_singleton he with ⟨hi, he⟩ | ⟨-, rfl⟩
    · obtain ⟨receipt, hreceipt⟩ := h.chained i e wire he hwire
      exact ⟨receipt, { hreceipt with
        previous := hreceipt.previous.trans (previousDigest_append hi).symm }⟩
    · cases hwire
  · intro i e ack he hack
    rcases getElem?_append_singleton he with ⟨-, he⟩ | ⟨-, rfl⟩
    · obtain ⟨h₁, h₂, h₃, h₄⟩ := h.named i e ack he hack
      exact ⟨h₁, h₂, h₃, le_trans h₄ hnew.ready.notRegressed⟩
    · cases hack
  · intro i j a b x y hij ha hb hx hy
    rcases getElem?_append_singleton hb with ⟨hj, hb⟩ | ⟨-, rfl⟩
    · rcases getElem?_append_singleton ha with ⟨-, ha⟩ | ⟨hi, -⟩
      · exact h.ordered i j a b x y hij ha hb hx hy
      · omega
    · cases hy
  · intro i e he
    rcases getElem?_append_singleton he with ⟨-, he⟩ | ⟨rfl, rfl⟩
    · obtain ⟨r, hr⟩ := h.committed i e he
      refine ⟨r, { hr with found := ?_ }⟩
      rw [← hr.found]
      apply OrderedMap.get?_insert_of_ne
      intro heq
      have hfound := hr.found
      rw [heq, hnew.found] at hfound
      cases hfound
      exact absurd (hnew.evaluating.symm.trans hr.terminal) nofun
    · refine ⟨_, OrderedMap.get?_insert_self _ _ _, rfl, rfl, rfl, ?_⟩
      intro ack hack
      cases hack
  · intro id r hr hterminal
    simp only [committedState, OrderedMap.get?_insert] at hr
    split at hr
    · rename_i hid
      cases hr
      exact ⟨s.outbox.length, committedEntry claimId body, rfl, by simp [committedState],
        hid.symm⟩
    · obtain ⟨i, e, hi, he, hid⟩ := h.positioned id r hr hterminal
      refine ⟨i, e, hi, ?_, hid⟩
      have hlt := (List.getElem?_eq_some_iff.mp he).1
      rw [← he]
      exact List.getElem?_append_left hlt

/-! ## Publication -/

theorem getElem?_modify_eq_some {α : Type} {xs : List α} {f : α → α} {i j : Nat} {y : α}
    (h : (xs.modify i f)[j]? = some y) :
    (j ≠ i ∧ xs[j]? = some y) ∨ (j = i ∧ ∃ x, xs[i]? = some x ∧ y = f x) := by
  rw [List.getElem?_modify] at h
  obtain ⟨x, hx, hy⟩ := Option.map_eq_some_iff.mp h
  by_cases hij : i = j
  · rw [if_pos hij] at hy
    exact .inr ⟨hij.symm, x, by rw [hij]; exact hx, hy.symm⟩
  · rw [if_neg hij] at hy
    exact .inl ⟨Ne.symm hij, hy ▸ hx⟩

theorem LogIntact.unacknowledged {s : StoreState} (h : LogIntact P s) {i : Nat}
    {e : OutboxEntry} (he : s.outbox[i]? = some e) (hpending : e.wire = none) : e.ack = none := by
  by_contra hack
  have hwire := h.acknowledgedPublished i e he (Option.isSome_iff_ne_none.mpr hack)
  rw [hpending] at hwire
  cases hwire

/-- Before the next position to publish, everything is published. -/
theorem LogIntact.publishedBefore {s : StoreState} (h : LogIntact P s) {index : Nat}
    (hnext : 0 < index → (s.outbox[index - 1]?).any (·.wire.isNone) = false) {i : Nat}
    {a : OutboxEntry} (hi : i < index) (ha : s.outbox[i]? = some a)
    (hindex : index < s.outbox.length) : a.wire.isSome = true := by
  have hlast : s.outbox[index - 1]? = some s.outbox[index - 1] :=
    List.getElem?_eq_getElem (by omega)
  have hwire : s.outbox[index - 1].wire.isSome = true := by
    have hany := hnext (by omega)
    rw [hlast, Option.any_some] at hany
    simpa [Option.isSome_iff_ne_none] using hany
  rcases Nat.lt_or_ge i (index - 1) with hlt | hge
  · exact h.publishedPrefix i (index - 1) a _ hlt ha hlast hwire
  · obtain rfl : i = index - 1 := by omega
    rw [hlast] at ha
    cases ha
    exact hwire

/-- The body a committed claim is published with is the body of its entry. -/
theorem LogIntact.committedBody {s : StoreState} (h : LogIntact P s) {claimId : String}
    {body : Bytes} {index : Nat} {e : OutboxEntry}
    (hcommitted : committedIndex s claimId body = some index)
    (he : s.outbox[index]? = some e) : e.claimId = claimId ∧ e.body = body := by
  obtain ⟨record, hrecord, hterminal, hbody, hposition, -⟩ := committedIndex_eq_some hcommitted
  obtain ⟨i, e', hi, he', hid⟩ := h.positioned claimId record hrecord hterminal
  obtain rfl : index = i := Option.some.inj (hposition.symm.trans hi)
  obtain rfl : e = e' := Option.some.inj (he.symm.trans he')
  obtain ⟨r, hr⟩ := h.committed index e he
  have hsame : r = record := by
    have hfound := hr.found
    rw [hid, hrecord] at hfound
    exact (Option.some.inj hfound).symm
  exact ⟨hid, by rw [← hr.body, hsame, hbody]⟩

/-- An entry after a modification, with what it was before. -/
theorem previousDigest_modify {outbox : List OutboxEntry} {f : OutboxEntry → OutboxEntry}
    {index i : Nat} (h : i ≠ index + 1) :
    previousDigest (outbox.modify index f) i = previousDigest outbox i := by
  simp only [previousDigest]
  split
  · rfl
  · rename_i hi
    rw [List.getElem?_modify_ne]
    omega

/-- A step that publishes the next entry. -/
theorem LogIntact.afterAppended {claimId : String} {body : Bytes}
    {sign : V2ObjectType → Bytes → V2SignResult HybridSignature} {index : Nat}
    {receipt : VerificationReceiptV2} {wire digest : Bytes} {entry : OutboxEntry}
    {s t : StoreState} (h : LogIntact P s)
    (hnew : EntryAppended P claimId body sign index receipt wire digest entry s t) :
    LogIntact P t := by
  obtain rfl := hnew.state
  obtain ⟨hlogId, hsequence, hprevious, hbody⟩ :=
    signPreparedVerificationReceiptV2WithSigner_eq_ok hnew.signed
  have hlt : index < s.outbox.length := (List.getElem?_eq_some_iff.mp hnew.entry).1
  have hentry : ∀ e, s.outbox[index]? = some e → e = entry := fun e he =>
    Option.some.inj (he.symm.trans hnew.entry)
  have hunacked : entry.ack = none := h.unacknowledged hnew.entry hnew.pending
  -- Every entry keeps its claim, body and acknowledgement.
  have hbefore : ∀ {i : Nat} {y : OutboxEntry},
      (s.outbox.modify index fun e => { e with wire := some wire, digest })[i]? = some y →
      ∃ x, s.outbox[i]? = some x ∧ y.claimId = x.claimId ∧ y.body = x.body ∧ y.ack = x.ack
        ∧ (y.ack.isSome = true → y = x) := by
    intro i y hy
    rcases getElem?_modify_eq_some hy with ⟨-, hx⟩ | ⟨rfl, x, hx, rfl⟩
    · exact ⟨y, hx, rfl, rfl, rfl, fun _ => rfl⟩
    · refine ⟨x, hx, rfl, rfl, rfl, fun hack => ?_⟩
      rw [hentry x hx, hunacked] at hack
      cases hack
  refine
    { publishedPrefix := ?_, acknowledgedPrefix := ?_, acknowledgedPublished := ?_
      chained := ?_, named := ?_, ordered := ?_, committed := ?_, positioned := ?_ }
  · intro i j a b hij ha hb hwire
    rcases getElem?_modify_eq_some ha with ⟨-, ha₀⟩ | ⟨-, x, -, rfl⟩
    · rcases getElem?_modify_eq_some hb with ⟨-, hb₀⟩ | ⟨hj, -⟩
      · exact h.publishedPrefix i j a b hij ha₀ hb₀ hwire
      · exact h.publishedBefore hnew.next (hj ▸ hij) ha₀ hlt
    · rfl
  · intro i j a b hij ha hb hack
    obtain ⟨a₀, ha₀, -, -, haa, -⟩ := hbefore ha
    obtain ⟨b₀, hb₀, -, -, hba, -⟩ := hbefore hb
    rw [haa]
    exact h.acknowledgedPrefix i j a₀ b₀ hij ha₀ hb₀ (hba ▸ hack)
  · intro i e he hack
    obtain ⟨e₀, he₀, -, -, -, heq⟩ := hbefore he
    obtain rfl := heq hack
    exact h.acknowledgedPublished i e he₀ hack
  · intro i e w he hwire
    rcases getElem?_modify_eq_some he with ⟨hi, he⟩ | ⟨rfl, x, hx, rfl⟩
    · obtain ⟨r, hr⟩ := h.chained i e w he hwire
      refine ⟨r, { hr with previous := hr.previous.trans (previousDigest_modify ?_).symm }⟩
      rintro rfl
      have hpublished := h.publishedPrefix index (index + 1) entry e (Nat.lt_succ_self _)
        hnew.entry he (by rw [hwire]; rfl)
      rw [hnew.pending] at hpublished
      cases hpublished
    · cases hwire
      refine ⟨receipt,
        { encoded := hnew.encoded, log := hlogId, sequence := hsequence, previous := ?_
          digest := hnew.hashed, body := ?_ }⟩
      · rw [previousDigest_modify (Nat.ne_of_lt (Nat.lt_succ_self _))]
        exact hprevious
      · rw [(h.committedBody hnew.committed hx).2]
        exact hbody
  · intro i e ack he hack
    obtain ⟨e₀, he₀, -, -, -, heq⟩ := hbefore he
    obtain rfl := heq (by rw [hack]; rfl)
    exact h.named i e ack he₀ hack
  · intro i j a b x y hij ha hb hx hy
    obtain ⟨a₀, ha₀, -, -, haa, -⟩ := hbefore ha
    obtain ⟨b₀, hb₀, -, -, hba, -⟩ := hbefore hb
    exact h.ordered i j a₀ b₀ x y hij ha₀ hb₀ (haa ▸ hx) (hba ▸ hy)
  · intro i e he
    obtain ⟨e₀, he₀, hid, hebody, hack, -⟩ := hbefore he
    obtain ⟨r, hr⟩ := h.committed i e₀ he₀
    refine ⟨r, ?_⟩
    exact
      { found := by rw [hid]; exact hr.found
        terminal := hr.terminal
        position := hr.position
        body := hr.body.trans hebody.symm
        finalized := by rw [hack]; exact hr.finalized }
  · intro id r hr hterminal
    obtain ⟨i, e, hi, he, hid⟩ := h.positioned id r hr hterminal
    refine ⟨i, _, hi, by rw [List.getElem?_modify, he]; rfl, ?_⟩
    split <;> exact hid

/-! ## Acknowledgement -/

theorem getElem?_acknowledgeEntries {logId : String} {timestamp : Int} {es : List OutboxEntry}
    (hearlier : ∀ (i j : Nat) (a b : OutboxEntry), i < j → es[i]? = some a → es[j]? = some b →
      b.wire.isSome = true → a.wire.isSome = true) (sequence : Int) (i : Nat) :
    (acknowledgeEntries logId timestamp sequence es)[i]? = (es[i]?).map fun e =>
      if e.wire.isSome && e.ack.isNone then
        { e with ack := some { logId, sequence := sequence + i, entryHash := e.digest, timestamp } }
      else e := by
  induction es generalizing sequence i with
  | nil => rfl
  | cons e es ih =>
    have htail : ∀ (i j : Nat) (a b : OutboxEntry), i < j → es[i]? = some a → es[j]? = some b →
        b.wire.isSome = true → a.wire.isSome = true := fun i j a b hij ha hb =>
      hearlier (i + 1) (j + 1) a b (Nat.succ_lt_succ hij) ha hb
    simp only [acknowledgeEntries]
    split
    · rename_i hpending
      -- Nothing after an entry that is not appended is appended.
      have hnone : ∀ x, (e :: es)[i]? = some x → x.wire.isSome = false := by
        intro x hx
        cases i with
        | zero =>
          cases hx
          simpa using hpending
        | succ j =>
          by_contra hwire
          have := hearlier 0 (j + 1) e x (Nat.succ_pos _) rfl hx
            (Bool.eq_true_of_not_eq_false hwire)
          rw [Option.isNone_iff_eq_none] at hpending
          rw [hpending] at this
          cases this
      cases hx : (e :: es)[i]? with
      | none => rfl
      | some x => simp [hnone x hx]
    · rename_i happended
      have hwire : e.wire.isSome = true := by
        simpa [Option.isSome_iff_ne_none] using happended
      cases i with
      | zero =>
        cases hack : e.ack <;> simp [hwire, hack]
      | succ j =>
        simp only [List.getElem?_cons_succ]
        rw [ih htail (sequence + 1) j]
        congr 1
        funext x
        rw [show sequence + 1 + (j : Int) = sequence + ((j + 1 : Nat) : Int) by push_cast; omega]

/-- The acknowledgement of the entry at `index`. -/
def acknowledgementAt (logId : String) (index : Nat) (timestamp : Int) (e : OutboxEntry) :
    V2CheckpointAcknowledgement :=
  { logId, sequence := (index : Int) + 1, entryHash := e.digest, timestamp }

/-- The checkpoint took the entries `new` at one reading: they are published and
not acknowledged yet, and everything before them is or becomes acknowledged. -/
structure AckStep (new : Nat → OutboxEntry → Bool) (s t : StoreState) : Prop where
  log : t.logId = s.logId
  claims : t.claims = s.claims
  notRegressed : s.highWater ≤ s.now
  clock : t.highWater = s.now
  outbox : ∀ i, t.outbox[i]? = (s.outbox[i]?).map fun e =>
    if new i e then { e with ack := some (acknowledgementAt s.logId i s.now e) } else e
  appended : ∀ i e, s.outbox[i]? = some e → new i e = true → e.wire.isSome = true
  fresh : ∀ i e, s.outbox[i]? = some e → new i e = true → e.ack = none
  inOrder : ∀ (i j : Nat) (a b : OutboxEntry), i < j → s.outbox[i]? = some a →
    s.outbox[j]? = some b → new j b = true → a.ack.isSome = true ∨ new i a = true

/-- What an entry was before the checkpoint took some. -/
theorem AckStep.before {new : Nat → OutboxEntry → Bool} {s t : StoreState}
    (h : AckStep new s t) {i : Nat} {y : OutboxEntry} (hy : t.outbox[i]? = some y) :
    ∃ x, s.outbox[i]? = some x ∧ y.claimId = x.claimId ∧ y.body = x.body ∧ y.wire = x.wire
      ∧ y.digest = x.digest
      ∧ ((new i x = true ∧ y.ack = some (acknowledgementAt s.logId i s.now x))
        ∨ (new i x = false ∧ y.ack = x.ack)) := by
  rw [h.outbox i] at hy
  obtain ⟨x, hx, rfl⟩ := Option.map_eq_some_iff.mp hy
  refine ⟨x, hx, ?_⟩
  cases hnew : new i x with
  | true => exact ⟨rfl, rfl, rfl, rfl, .inl ⟨rfl, rfl⟩⟩
  | false => exact ⟨rfl, rfl, rfl, rfl, .inr ⟨rfl, rfl⟩⟩

theorem AckStep.previousDigest {new : Nat → OutboxEntry → Bool} {s t : StoreState}
    (h : AckStep new s t) (i : Nat) :
    V2.previousDigest t.outbox i = V2.previousDigest s.outbox i := by
  simp only [V2.previousDigest]
  rw [h.outbox]
  cases s.outbox[i - 1]? with
  | none => rfl
  | some e =>
    simp only [Option.map_some, Option.getD_some]
    split
    · rfl
    · split <;> rfl

/-- A step that acknowledges. -/
theorem LogIntact.afterAcks {new : Nat → OutboxEntry → Bool} {s t : StoreState}
    (h : LogIntact P s) (htimes : TimesKept s) (hstep : AckStep new s t) : LogIntact P t := by
  refine
    { publishedPrefix := ?_, acknowledgedPrefix := ?_, acknowledgedPublished := ?_
      chained := ?_, named := ?_, ordered := ?_, committed := ?_, positioned := ?_ }
  · intro i j a b hij ha hb hwire
    obtain ⟨a₀, ha₀, -, -, haw, -⟩ := hstep.before ha
    obtain ⟨b₀, hb₀, -, -, hbw, -⟩ := hstep.before hb
    rw [haw]
    exact h.publishedPrefix i j a₀ b₀ hij ha₀ hb₀ (hbw ▸ hwire)
  · intro i j a b hij ha hb hack
    obtain ⟨a₀, ha₀, -, -, -, -, haack⟩ := hstep.before ha
    obtain ⟨b₀, hb₀, -, -, -, -, hback⟩ := hstep.before hb
    rcases haack with ⟨-, haack⟩ | ⟨hold, haack⟩
    · rw [haack]
      rfl
    · rw [haack]
      rcases hback with ⟨hbnew, -⟩ | ⟨-, hback⟩
      · rcases hstep.inOrder i j a₀ b₀ hij ha₀ hb₀ hbnew with hacked | hanew
        · exact hacked
        · rw [hold] at hanew
          cases hanew
      · exact h.acknowledgedPrefix i j a₀ b₀ hij ha₀ hb₀ (hback ▸ hack)
  · intro i e he hack
    obtain ⟨e₀, he₀, -, -, hwire, -, heack⟩ := hstep.before he
    rw [hwire]
    rcases heack with ⟨hnew, -⟩ | ⟨-, heack⟩
    · exact hstep.appended i e₀ he₀ hnew
    · exact h.acknowledgedPublished i e₀ he₀ (heack ▸ hack)
  · intro i e wire he hw
    obtain ⟨e₀, he₀, -, hbody, hwire, hdigest, -⟩ := hstep.before he
    obtain ⟨receipt, hreceipt⟩ := h.chained i e₀ wire he₀ (hwire ▸ hw)
    exact ⟨receipt,
      { encoded := hreceipt.encoded
        log := hreceipt.log.trans hstep.log.symm
        sequence := hreceipt.sequence
        previous := hreceipt.previous.trans (hstep.previousDigest i).symm
        digest := by rw [hdigest]; exact hreceipt.digest
        body := by rw [hbody]; exact hreceipt.body }⟩
  · intro i e ack he hack
    obtain ⟨e₀, he₀, -, -, -, hdigest, heack⟩ := hstep.before he
    rw [hstep.log, hstep.clock, hdigest]
    rcases heack with ⟨-, heack⟩ | ⟨-, heack⟩
    · rw [hack] at heack
      cases heack
      exact ⟨rfl, rfl, rfl, le_refl _⟩
    · obtain ⟨h₁, h₂, h₃, h₄⟩ := h.named i e₀ ack he₀ (heack ▸ hack)
      exact ⟨h₁, h₂, h₃, le_trans h₄ hstep.notRegressed⟩
  · intro i j a b x y hij ha hb hx hy
    obtain ⟨a₀, ha₀, -, -, -, -, haack⟩ := hstep.before ha
    obtain ⟨b₀, hb₀, -, -, -, -, hback⟩ := hstep.before hb
    rcases hback with ⟨-, hback⟩ | ⟨hbold, hback⟩
    · -- The new acknowledgement has the newest reading.
      rw [hy] at hback
      cases hback
      rcases haack with ⟨-, haack⟩ | ⟨-, haack⟩
      · rw [hx] at haack
        cases haack
        exact le_refl _
      · exact le_trans (h.named i a₀ x ha₀ (haack ▸ hx)).2.2.2 hstep.notRegressed
    · rcases haack with ⟨hanew, -⟩ | ⟨-, haack⟩
      · -- An entry before an acknowledged one was acknowledged.
        have hacked := h.acknowledgedPrefix i j a₀ b₀ hij ha₀ hb₀ (by rw [← hback, hy]; rfl)
        rw [hstep.fresh i a₀ ha₀ hanew] at hacked
        cases hacked
      · exact h.ordered i j a₀ b₀ x y hij ha₀ hb₀ (haack ▸ hx) (hback ▸ hy)
  · intro i e he
    obtain ⟨e₀, he₀, hid, hbody, -, -, heack⟩ := hstep.before he
    obtain ⟨r, hr⟩ := h.committed i e₀ he₀
    refine ⟨r, ?_⟩
    rw [hstep.claims]
    refine
      { found := by rw [hid]; exact hr.found
        terminal := hr.terminal
        position := hr.position
        body := hr.body.trans hbody.symm
        finalized := ?_ }
    intro ack hack
    rcases heack with ⟨-, heack⟩ | ⟨-, heack⟩
    · rw [hack] at heack
      cases heack
      have hfinal := ((htimes e₀.claimId r hr.found).finalized hr.terminal).2
      exact le_trans hfinal hstep.notRegressed
    · exact hr.finalized ack (heack ▸ hack)
  · intro id r hr hterminal
    rw [hstep.claims] at hr
    obtain ⟨i, e, hi, he, hid⟩ := h.positioned id r hr hterminal
    refine ⟨i, _, hi, by rw [hstep.outbox, he]; rfl, ?_⟩
    dsimp only
    split <;> exact hid

/-- The checkpoint takes every pending publication. -/
theorem EntriesAcknowledged.ackStep {s t : StoreState} (hlog : LogIntact P s)
    (h : EntriesAcknowledged s t) :
    AckStep (fun _ e => e.wire.isSome && e.ack.isNone) s t := by
  obtain rfl := h.state
  refine
    { log := rfl, claims := rfl, notRegressed := h.ready.notRegressed, clock := rfl
      outbox := ?_
      appended := fun i e _ hnew => (Bool.and_eq_true_iff.mp hnew).1
      fresh := fun i e _ hnew =>
        Option.isNone_iff_eq_none.mp (Bool.and_eq_true_iff.mp hnew).2
      inOrder := ?_ }
  · intro i
    rw [getElem?_acknowledgeEntries hlog.publishedPrefix]
    simp only [acknowledgementAt, add_comm (1 : Int)]
  · intro i j a b hij ha hb hnew
    have hwire := hlog.publishedPrefix i j a b hij ha hb (Bool.and_eq_true_iff.mp hnew).1
    cases hack : a.ack with
    | none => exact .inr (by rw [hwire]; rfl)
    | some ack => exact .inl rfl

theorem acknowledgedLink_isSome {s : StoreState} {index : Nat} (hpos : 0 < index)
    (h : (acknowledgedLink s index).isSome = true) :
    ∃ p, s.outbox[index - 1]? = some p ∧ p.ack.isSome = true := by
  rw [acknowledgedLink, if_neg (by omega)] at h
  cases hp : s.outbox[index - 1]? with
  | none =>
    rw [hp] at h
    cases h
  | some p =>
    rw [hp] at h
    by_cases hack : p.ack.isSome = true
    · exact ⟨p, rfl, hack⟩
    · simp only [hack] at h
      cases h

/-- The checkpoint takes the next entry. -/
theorem EntryAcknowledged.ackStep {logId : String} {sequence : Int} {entryHash : Bytes}
    {index : Nat} {e : OutboxEntry} {s t : StoreState} (hlog : LogIntact P s)
    (h : EntryAcknowledged logId sequence entryHash index e s t) :
    AckStep (fun i _ => decide (i = index)) s t := by
  obtain rfl := h.state
  have hentry : ∀ x, s.outbox[index]? = some x → x = e := fun x hx =>
    Option.some.inj (hx.symm.trans h.entry)
  refine
    { log := rfl, claims := rfl, notRegressed := h.ready.notRegressed, clock := rfl
      outbox := ?_, appended := ?_, fresh := ?_, inOrder := ?_ }
  · intro i
    rw [List.getElem?_modify]
    cases hx : s.outbox[i]? with
    | none => rfl
    | some x =>
      by_cases hi : index = i
      · subst hi
        obtain rfl := hentry x hx
        simp [acknowledgementAt, h.log, h.position, h.digest]
      · simp [hi, Ne.symm hi]
  · intro i x hx hi
    obtain rfl := of_decide_eq_true hi
    rw [hentry x hx]
    exact h.appended
  · intro i x hx hi
    obtain rfl := of_decide_eq_true hi
    rw [hentry x hx]
    exact h.unacknowledged
  · intro i j a b hij ha hb hj
    obtain rfl := of_decide_eq_true hj
    refine .inl ?_
    -- The entry before the next one is acknowledged, and so is all before it.
    obtain ⟨p, hp, hpack⟩ := acknowledgedLink_isSome (by omega) h.link
    rcases Nat.lt_or_ge i (j - 1) with hlt | hge
    · exact hlog.acknowledgedPrefix i (j - 1) a p hlt ha hp hpack
    · obtain rfl : i = j - 1 := by omega
      rw [ha] at hp
      cases hp
      exact hpack

/-! ## Steps and runs -/

theorem TimesKept.of_eq {s t : StoreState} (h : TimesKept s) (hclaims : t.claims = s.claims)
    (hclock : t.highWater = s.highWater) : TimesKept t := by
  intro id r hr
  rw [hclaims] at hr
  rw [hclock]
  exact h id r hr

theorem LogIntact.afterEntries {s t : StoreState} (h : LogIntact P s) (htimes : TimesKept s)
    (hack : EntriesAcknowledged s t) : LogIntact P t :=
  h.afterAcks htimes (hack.ackStep h)

/-- Every call keeps the log intact. -/
theorem LogIntact.step {call : StoreCall} {r : V2StoreResult StoreReply} {s t : StoreState}
    (h : LogIntact P s) (htimes : TimesKept s) (heffect : CallEffect P call s r t) :
    LogIntact P t := by
  have hsame : ∀ {u : StoreState}, u.outbox = s.outbox → u.logId = s.logId →
      s.highWater ≤ u.highWater → u.claims = s.claims → LogIntact P u :=
    fun houtbox hlog hclock hclaims => h.kept houtbox hlog hclock (.of_claims_eq hclaims)
  cases heffect with
  | quiet hquiet _ =>
    refine hsame hquiet.outbox ?_ hquiet.highWater_le hquiet.claims
    rcases hquiet with rfl | ⟨-, rfl⟩ <;> rfl
  | created hnew => exact h.afterCreated hnew
  | progressed hnew =>
    obtain rfl := hnew.state
    refine h.kept rfl rfl hnew.ready.notRegressed (.of_insert hnew.found ?_ rfl)
    rfl
  | finalized hnew => exact h.afterCommitted hnew.terminal
  | recovered hnew => exact h.afterCommitted hnew.committed
  | released hnew =>
    obtain rfl := hnew.state
    refine h.kept rfl rfl (le_refl _) (.of_insert hnew.found ?_ rfl)
    rfl
  | appended hnew hsubmitted =>
    have happended := h.afterAppended hnew
    rcases hsubmitted with rfl | hack
    · exact happended
    · refine happended.afterEntries ?_ hack
      obtain rfl := hnew.state
      exact htimes.of_eq rfl rfl
  | acknowledged hnew => exact h.afterAcks htimes (hnew.ackStep h)
  | forked => exact hsame rfl rfl (le_refl _) rfl
  | timeSet => exact hsame rfl rfl (le_refl _) rfl
  | signerSet => exact hsame rfl rfl (le_refl _) rfl
  | @withheldSet withheld _ _ hsubmitted =>
    have hset : LogIntact P { s with ackWithheld := withheld } := hsame rfl rfl (le_refl _) rfl
    rcases hsubmitted with rfl | hack
    · exact hset
    · exact hset.afterEntries (htimes.of_eq rfl rfl) hack
  | rateEnabled => exact hsame rfl rfl (le_refl _) rfl
  | abandoned => exact h.kept rfl rfl (le_refl _) (claimsKept_abandonPending s)

/-- What a later log keeps of an entry. -/
structure EntryExtends (e e' : OutboxEntry) : Prop where
  claimId : e'.claimId = e.claimId
  body : e'.body = e.body
  published : ∀ wire, e.wire = some wire → e'.wire = some wire ∧ e'.digest = e.digest
  acknowledged : ∀ ack, e.ack = some ack → e'.ack = some ack

theorem EntryExtends.refl (e : OutboxEntry) : EntryExtends e e :=
  ⟨rfl, rfl, fun _ h => ⟨h, rfl⟩, fun _ h => h⟩

theorem EntryExtends.trans {a b c : OutboxEntry} (h₁ : EntryExtends a b)
    (h₂ : EntryExtends b c) : EntryExtends a c := by
  refine ⟨h₂.claimId.trans h₁.claimId, h₂.body.trans h₁.body, ?_, fun ack h =>
    h₂.acknowledged ack (h₁.acknowledged ack h)⟩
  intro wire h
  obtain ⟨hwire, hdigest⟩ := h₁.published wire h
  obtain ⟨hwire', hdigest'⟩ := h₂.published wire hwire
  exact ⟨hwire', hdigest'.trans hdigest⟩

/-- What a later state keeps of the log; once the checkpoint is frozen, every
acknowledgement was there before. -/
structure LogExtends (s t : StoreState) : Prop where
  kept : ∀ (i : Nat) (e : OutboxEntry), s.outbox[i]? = some e →
    ∃ e', t.outbox[i]? = some e' ∧ EntryExtends e e'
  frozen : s.checkpointFrozen = true → t.checkpointFrozen = true
  noNewAcks : s.checkpointFrozen = true →
    ∀ (i : Nat) (e' : OutboxEntry) (ack : V2CheckpointAcknowledgement), t.outbox[i]? = some e' →
      e'.ack = some ack → ∃ e, s.outbox[i]? = some e ∧ e.ack = some ack
  log : t.logId = s.logId

theorem LogExtends.of_outbox_eq {s t : StoreState} (houtbox : t.outbox = s.outbox)
    (hfrozen : s.checkpointFrozen = true → t.checkpointFrozen = true) (hlog : t.logId = s.logId) :
    LogExtends s t where
  kept := fun i e he => ⟨e, by rw [houtbox]; exact he, .refl e⟩
  frozen := hfrozen
  noNewAcks := fun _ i e ack he hack => ⟨e, by rw [← houtbox]; exact he, hack⟩
  log := hlog

theorem LogExtends.refl (s : StoreState) : LogExtends s s := .of_outbox_eq rfl id rfl

theorem LogExtends.trans {s t u : StoreState} (h₁ : LogExtends s t) (h₂ : LogExtends t u) :
    LogExtends s u := by
  refine ⟨?_, fun h => h₂.frozen (h₁.frozen h), ?_, h₂.log.trans h₁.log⟩
  · intro i e he
    obtain ⟨e', he', hext⟩ := h₁.kept i e he
    obtain ⟨e'', he'', hext'⟩ := h₂.kept i e' he'
    exact ⟨e'', he'', hext.trans hext'⟩
  · intro hfrozen i e ack he hack
    obtain ⟨e', he', hack'⟩ := h₂.noNewAcks (h₁.frozen hfrozen) i e ack he hack
    exact h₁.noNewAcks hfrozen i e' ack he' hack'

theorem AckStep.logExtends {new : Nat → OutboxEntry → Bool} {s t : StoreState}
    (h : AckStep new s t) (hunfrozen : s.checkpointFrozen = false) : LogExtends s t := by
  refine ⟨?_, ?_, ?_, h.log⟩
  · intro i e he
    refine ⟨_, by rw [h.outbox, he]; rfl, ?_⟩
    dsimp only
    split
    · rename_i hnew
      refine ⟨rfl, rfl, fun _ hwire => ⟨hwire, rfl⟩, fun ack hack => ?_⟩
      rw [h.fresh i e he hnew] at hack
      cases hack
    · exact .refl e
  · intro hfrozen
    rw [hunfrozen] at hfrozen
    cases hfrozen
  · intro hfrozen
    rw [hunfrozen] at hfrozen
    cases hfrozen

theorem EntryAppended.logExtends {claimId : String} {body : Bytes}
    {sign : V2ObjectType → Bytes → V2SignResult HybridSignature} {index : Nat}
    {receipt : VerificationReceiptV2} {wire digest : Bytes} {entry : OutboxEntry}
    {s t : StoreState}
    (h : EntryAppended P claimId body sign index receipt wire digest entry s t) :
    LogExtends s t := by
  obtain rfl := h.state
  refine ⟨?_, fun hfrozen => hfrozen, ?_, rfl⟩
  · intro i e he
    refine ⟨_, by rw [List.getElem?_modify, he]; rfl, ?_⟩
    split
    · rename_i hi
      subst hi
      refine ⟨rfl, rfl, fun _ hwire => ?_, fun _ hack => hack⟩
      rw [h.entry] at he
      cases he
      rw [h.pending] at hwire
      cases hwire
    · exact .refl e
  · intro _ i e ack he hack
    rcases getElem?_modify_eq_some he with ⟨-, he⟩ | ⟨rfl, x, hx, rfl⟩
    · exact ⟨e, he, hack⟩
    · exact ⟨x, hx, hack⟩

theorem TerminalCommitted.logExtends {claimId : String} {record : ClaimRecord}
    {terminal body : Bytes} {horizon : Int} {admitted : Bool} {s t : StoreState}
    (h : TerminalCommitted claimId record terminal body horizon admitted s t) : LogExtends s t := by
  obtain rfl := h.state
  refine ⟨?_, fun hfrozen => hfrozen, ?_, rfl⟩
  · intro i e he
    have hlt := (List.getElem?_eq_some_iff.mp he).1
    exact ⟨e, (List.getElem?_append_left hlt).trans he, .refl e⟩
  · intro _ i e ack he hack
    rcases getElem?_append_singleton he with ⟨-, he⟩ | ⟨-, rfl⟩
    · exact ⟨e, he, hack⟩
    · cases hack

theorem CallEffect.logExtends {call : StoreCall} {r : V2StoreResult StoreReply}
    {s t : StoreState} (h : LogIntact P s) (heffect : CallEffect P call s r t) :
    LogExtends s t := by
  cases heffect with
  | quiet hquiet _ => rcases hquiet with rfl | ⟨-, rfl⟩ <;> exact .of_outbox_eq rfl id rfl
  | created hnew =>
    obtain rfl := hnew.state
    exact .of_outbox_eq rfl id rfl
  | progressed hnew =>
    obtain rfl := hnew.state
    exact .of_outbox_eq rfl id rfl
  | finalized hnew => exact hnew.terminal.logExtends
  | recovered hnew => exact hnew.committed.logExtends
  | released hnew =>
    obtain rfl := hnew.state
    exact .of_outbox_eq rfl id rfl
  | appended hnew hsubmitted =>
    rcases hsubmitted with rfl | hack
    · exact hnew.logExtends
    · exact hnew.logExtends.trans ((hack.ackStep (h.afterAppended hnew)).logExtends hack.unfrozen)
  | acknowledged hnew => exact (hnew.ackStep h).logExtends hnew.unfrozen
  | forked => exact .of_outbox_eq rfl (fun _ => rfl) rfl
  | timeSet => exact .of_outbox_eq rfl id rfl
  | signerSet => exact .of_outbox_eq rfl id rfl
  | @withheldSet withheld _ _ hsubmitted =>
    have hset : LogExtends s { s with ackWithheld := withheld } := .of_outbox_eq rfl id rfl
    rcases hsubmitted with rfl | hack
    · exact hset
    · have hintact : LogIntact P { s with ackWithheld := withheld } :=
        h.kept rfl rfl (le_refl _) (.of_claims_eq rfl)
      exact hset.trans ((hack.ackStep hintact).logExtends hack.unfrozen)
  | rateEnabled => exact .of_outbox_eq rfl id rfl
  | abandoned => exact .of_outbox_eq rfl id rfl

theorem StoreRun.logIntact {s t : Anchored ω} {events : List StoreEvent}
    (h : LogIntact P s.store) (htimes : TimesKept s.store)
    (run : StoreRun P anchor s events t) : LogIntact P t.store ∧ TimesKept t.store :=
  run.invariant (fun t => LogIntact P t.store ∧ TimesKept t.store) ⟨h, htimes⟩
    fun _ _ _ h hlast =>
      ⟨h.1.step h.2 (perform_effect hlast), h.2.step (perform_effect hlast)⟩

theorem StoreRun.logExtends {s t : Anchored ω} {events : List StoreEvent}
    (h : LogIntact P s.store) (htimes : TimesKept s.store)
    (run : StoreRun P anchor s events t) : LogExtends s.store t.store :=
  (run.invariant
    (fun t => LogIntact P t.store ∧ TimesKept t.store ∧ LogExtends s.store t.store)
    ⟨h, htimes, .refl _⟩ fun _ _ _ ⟨h, htimes, hext⟩ hlast =>
      have heffect := perform_effect hlast
      ⟨h.step htimes heffect, htimes.step heffect, hext.trans (heffect.logExtends h)⟩).2.2

/-! ## Terminal-commit order -/

theorem map_claimId_acknowledgeEntries (logId : String) (timestamp sequence : Int)
    (es : List OutboxEntry) :
    (acknowledgeEntries logId timestamp sequence es).map (·.claimId) = es.map (·.claimId) := by
  induction es generalizing sequence with
  | nil => rfl
  | cons e es ih =>
    simp only [acknowledgeEntries]
    split
    · rfl
    · simp only [List.map_cons, ih]
      split <;> rfl

theorem map_claimId_modify {f : OutboxEntry → OutboxEntry} (hf : ∀ e, (f e).claimId = e.claimId)
    (index : Nat) (es : List OutboxEntry) :
    (es.modify index f).map (·.claimId) = es.map (·.claimId) := by
  apply List.ext_getElem?
  intro i
  rw [List.getElem?_map, List.getElem?_map, List.getElem?_modify]
  cases es[i]? with
  | none => rfl
  | some e =>
    simp only [Option.map_eq_map, Option.map_some]
    split
    · rw [hf]
    · rfl

theorem EntriesAcknowledged.map_claimId {s t : StoreState} (h : EntriesAcknowledged s t) :
    t.outbox.map (·.claimId) = s.outbox.map (·.claimId) := by
  rw [h.state]
  exact map_claimId_acknowledgeEntries _ _ _ _

/-- The log gains an entry exactly when a claim is committed. -/
theorem CallEffect.map_claimId {call : StoreCall} {r : V2StoreResult StoreReply}
    {s t : StoreState} (h : CallEffect P call s r t) :
    t.outbox.map (·.claimId) = s.outbox.map (·.claimId) ++ (committedClaim (call, r)).toList := by
  cases h with
  | quiet hquiet hreply =>
    rw [hquiet.outbox, committedClaim_of_stale hreply, Option.toList_none, List.append_nil]
  | created hnew =>
    obtain rfl := hnew.state
    exact (List.append_nil _).symm
  | progressed hnew =>
    obtain rfl := hnew.state
    exact (List.append_nil _).symm
  | finalized hnew =>
    obtain rfl := hnew.state
    exact List.map_append
  | recovered hnew =>
    obtain rfl := hnew.state
    exact List.map_append
  | released hnew =>
    obtain rfl := hnew.state
    exact (List.append_nil _).symm
  | appended hnew hsubmitted =>
    obtain rfl := hnew.state
    refine Eq.trans ?_ (List.append_nil _).symm
    rcases hsubmitted with rfl | hack
    · apply map_claimId_modify
      exact fun _ => rfl
    · apply hack.map_claimId.trans
      apply map_claimId_modify
      exact fun _ => rfl
  | acknowledged hnew =>
    obtain rfl := hnew.state
    refine Eq.trans ?_ (List.append_nil _).symm
    apply map_claimId_modify
    exact fun _ => rfl
  | forked => exact (List.append_nil _).symm
  | timeSet => exact (List.append_nil _).symm
  | signerSet => exact (List.append_nil _).symm
  | withheldSet hsubmitted =>
    rcases hsubmitted with rfl | hack
    · exact (List.append_nil _).symm
    · exact hack.map_claimId.trans (List.append_nil _).symm
  | rateEnabled => exact (List.append_nil _).symm
  | abandoned => exact (List.append_nil _).symm

theorem StoreRun.commitOrder {s t : Anchored ω} {events : List StoreEvent}
    (h : s.store.outbox = []) (run : StoreRun P anchor s events t) :
    t.store.outbox.map (·.claimId) = committedClaims events := by
  refine run.history (fun events t => t.store.outbox.map (·.claimId) = committedClaims events)
    (by rw [h]; rfl) ?_
  intro events t i u _ ih hlast
  rw [(perform_effect hlast).map_claimId, ih, committedClaims_snoc]

/-! ## Retries and forks -/

/-- A position of the log is in the range of its sequences. -/
theorem sequence_inRange {s : StoreState} {i : Nat} (h : i < s.outbox.length) :
    ¬ (s.logId ≠ s.logId ∨ (i : Int) + 1 < 1 ∨ (i : Int) + 1 > s.outbox.length) := by
  rintro (h | h | h)
  · exact h rfl
  · omega
  · omega

theorem sequence_toNat (i : Nat) : (((i : Int) + 1) - 1).toNat = i := by omega

/-- An acknowledgement stays retrievable. -/
theorem getV2Acknowledgement_acknowledged {s : Anchored ω} {i : Nat} {e : OutboxEntry}
    {ack : V2CheckpointAcknowledgement} (he : s.store.outbox[i]? = some e)
    (hack : e.ack = some ack) :
    getV2Acknowledgement s.store.logId ((i : Int) + 1) s = (.ok ack, s) := by
  have hrange : ¬ (s.store.logId ≠ s.store.logId ∨ (i : Int) + 1 < 1) := by
    rintro (h | h)
    · exact h rfl
    · omega
  simp only [getV2Acknowledgement, getStore_bind]
  rw [if_neg hrange]
  simp only [sequence_toNat, he, Option.bind_some, hack]
  rfl

/-- An identical submission of an acknowledged entry answers with the original
acknowledgement, frozen or not. -/
theorem acknowledgeV2Receipt_acknowledged {s : Anchored ω} (h : LogIntact P s.store) {i : Nat}
    {e : OutboxEntry} {ack : V2CheckpointAcknowledgement} (he : s.store.outbox[i]? = some e)
    (hack : e.ack = some ack) :
    acknowledgeV2Receipt s.store.logId ((i : Int) + 1) (previousDigest s.store.outbox i) e.digest s
      = (.ok ack, s) := by
  have hlt : i < s.store.outbox.length := (List.getElem?_eq_some_iff.mp he).1
  have hwire := h.acknowledgedPublished i e he (by rw [hack]; rfl)
  have hlink : acknowledgedLink s.store i = some (previousDigest s.store.outbox i) := by
    rw [acknowledgedLink, previousDigest]
    split
    · rfl
    · rename_i hi
      have hp : s.store.outbox[i - 1]? = some s.store.outbox[i - 1] :=
        List.getElem?_eq_getElem (by omega)
      have hpack := h.acknowledgedPrefix (i - 1) i _ e (by omega) hp he (by rw [hack]; rfl)
      rw [hp]
      simp only [hpack, if_true, Option.map_some, Option.getD_some]
  simp only [acknowledgeV2Receipt, getStore_bind]
  rw [if_neg (sequence_inRange hlt)]
  simp only [sequence_toNat, he, hack, Option.any_some, Option.isNone_some]
  rw [if_neg (by rw [(h.named i e ack he hack).2.2.1]; simp), if_neg (by simp),
    if_neg (by simp [Option.isNone_iff_eq_none, Option.isSome_iff_ne_none.mp hwire]),
    if_neg (not_not.mpr hlink)]
  rfl

/-- Another entry hash at an acknowledged sequence is refused and freezes the
checkpoint. -/
theorem acknowledgeV2Receipt_fork {s t : Anchored ω} {i : Nat} {e : OutboxEntry}
    {ack : V2CheckpointAcknowledgement} {previous entryHash : Bytes}
    {r : V2StoreResult V2CheckpointAcknowledgement} (he : s.store.outbox[i]? = some e)
    (hack : e.ack = some ack) (hother : ack.entryHash ≠ entryHash)
    (h : acknowledgeV2Receipt s.store.logId ((i : Int) + 1) previous entryHash s = (r, t)) :
    t.store.checkpointFrozen = true ∧ ∃ failure, r = .error failure := by
  have hlt : i < s.store.outbox.length := (List.getElem?_eq_some_iff.mp he).1
  simp only [acknowledgeV2Receipt, getStore_bind] at h
  rw [if_neg (sequence_inRange hlt)] at h
  simp only [sequence_toNat, he, hack, Option.any_some] at h
  rw [if_pos (by simpa using hother)] at h
  cases h
  exact ⟨rfl, _, rfl⟩

/-! ## Receipt log integrity -/

/-- What holds of the receipt log in every run of the store from `start`. -/
structure ReceiptLogSound (P : Primitives) (anchor : StoreAnchor ω) (start : Anchored ω)
    (events : List StoreEvent) (s : Anchored ω) : Prop where
  intact : LogIntact P s.store
  commitOrder : s.store.outbox.map (·.claimId) = committedClaims events
  times : ∀ (i : Nat) (e : OutboxEntry), s.store.outbox[i]? = some e →
    ∃ r, EntryCommitted s.store.claims i e r ∧ r.claimedAt ≤ r.finalizedAt
      ∧ ∀ ack, e.ack = some ack → r.finalizedAt ≤ ack.timestamp
  permanent : ∀ before after u, events = before ++ after → StoreRun P anchor start before u →
    LogExtends u.store s.store
  forkFreezes : ∀ before after u v i e ack previous entryHash r,
    events = before ++ (.acknowledge u.store.logId ((i : Nat) + 1) previous entryHash, r) :: after →
    StoreRun P anchor start before u → u.store.outbox[i]? = some e → e.ack = some ack →
    ack.entryHash ≠ entryHash →
    Performs P anchor u
      (.acknowledge u.store.logId ((i : Nat) + 1) previous entryHash, r) v →
    v.store.checkpointFrozen = true ∧ (∃ failure, r = .error failure)
      ∧ s.store.checkpointFrozen = true
  returned : ∀ (i : Nat) (e : OutboxEntry) (ack : V2CheckpointAcknowledgement),
    s.store.outbox[i]? = some e → e.ack = some ack →
    getV2Acknowledgement s.store.logId ((i : Int) + 1) s = (.ok ack, s)
      ∧ acknowledgeV2Receipt s.store.logId ((i : Int) + 1) (previousDigest s.store.outbox i)
          e.digest s = (.ok ack, s)

/-- The receipt log of every run of a new store. -/
theorem receiptLog_sound {now leaseSeconds : Int} {logId : String} {verifierKey : HybridPublicKey}
    {start : StoreState} {device : ω} {events : List StoreEvent} {s : Anchored ω}
    (hnew : StoreState.new P now leaseSeconds logId verifierKey = .ok start)
    (run : StoreRun P anchor { store := start, device } events s) :
    ReceiptLogSound P anchor { store := start, device } events s := by
  obtain ⟨verifierId, -, -, -, hstart⟩ := StoreState.new_eq_ok hnew
  have hclaims : start.claims = .empty := by rw [hstart]
  have houtbox : start.outbox = [] := by rw [hstart]
  have hintact₀ : LogIntact P start := .initial hclaims houtbox
  have htimes₀ : TimesKept start := by
    intro id r hr
    rw [hclaims] at hr
    cases hr
  have hreached : ∀ {before u}, StoreRun P anchor { store := start, device } before u →
      LogIntact P u.store ∧ TimesKept u.store := fun run => run.logIntact hintact₀ htimes₀
  obtain ⟨hintact, htimes⟩ := hreached run
  have hextends : ∀ before after u, events = before ++ after →
      StoreRun P anchor { store := start, device } before u → LogExtends u.store s.store := by
    rintro before after u rfl hu
    obtain ⟨u', hu', hafter⟩ := Run.append_iff.mp run
    obtain rfl := Run.unique performs_unique hu hu'
    obtain ⟨h, ht⟩ := hreached hu
    exact StoreRun.logExtends h ht hafter
  refine
    { intact := hintact
      commitOrder := run.commitOrder houtbox
      times := ?_
      permanent := hextends
      forkFreezes := ?_
      returned := fun i e ack he hack =>
        ⟨getV2Acknowledgement_acknowledged he hack,
          acknowledgeV2Receipt_acknowledged hintact he hack⟩ }
  · intro i e he
    obtain ⟨r, hr⟩ := hintact.committed i e he
    exact ⟨r, hr, ((htimes e.claimId r hr.found).finalized hr.terminal).1, hr.finalized⟩
  · intro before after u v i e ack previous entryHash r hevents hu he hack hother hlast
    obtain ⟨r', hcall, rfl⟩ := reply_eq hlast
    obtain ⟨hfrozen, failure, rfl⟩ := acknowledgeV2Receipt_fork he hack hother hcall
    refine ⟨hfrozen, ⟨failure, rfl⟩, ?_⟩
    refine (hextends (before ++ [_]) after v ?_ (hu.snoc hlast)).frozen hfrozen
    rw [hevents, List.append_assoc]
    rfl

/-- The log of a run that publishes and acknowledges an allow, with an interrupted result
behind it. -/
theorem receiptLog_sound_hourly : ∃ (events : List StoreEvent) (s : Anchored Unit)
    (e e' : OutboxEntry) (ack : V2CheckpointAcknowledgement),
    ReceiptLogSound (counting []) (none : StoreAnchor Unit) { store := firstStore, device := () }
      events s
    ∧ s.store.outbox = [e, e'] ∧ committedClaims events = [e.claimId, e'.claimId]
    ∧ e.wire.isSome = true ∧ e.ack = some ack ∧ ack.timestamp = 160 ∧ e'.wire = none := by
  obtain ⟨terminal, body, terminal', body', wire, digest, -, hrun⟩ := run_hourly
  have hrate : Performs (counting []) (none : StoreAnchor Unit)
      { store := firstStore, device := () } (.withRateAtFinalization, .ok .configured)
      { store := { firstStore with rateAtFinalization := true }, device := () } := rfl
  exact ⟨_, _, _, _, _, receiptLog_sound (accepting_counting []).new_firstStore
    ((Run.single hrate).append hrun), rfl, rfl, rfl, rfl, rfl, rfl⟩

end RatifyProtocol.V2
