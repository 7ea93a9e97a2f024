import RatifyProtocol.V2.Reference.ApprovalOnce
import RatifyProtocol.V2.Reference.ReleaseOnce
set_option autoImplicit false

/-!
# Reference: dual-root approval of released decisions

The approval ledger next to the release of decisions: where every presented decision was
returned by a release call on one store, the two approvals of an executed set are released
decisions on two claims, and a claim counts in one slot of one set.
-/

namespace RatifyProtocol.V2

open Foundation

variable {ω : Type} {P : Primitives} {anchor : StoreAnchor ω}

/-! ## What is presented -/

/-- The decisions presented to the ledger. -/
def presentedDecisions (events : List LedgerEvent) : Set V2ReleasedDecision :=
  {d | ∃ setId slot wire r, (LedgerCall.recordApproval setId slot (some d) wire, r) ∈ events}

/-- The bundles presented to the ledger. -/
def presentedBundles (P : Primitives) (events : List LedgerEvent) : Set ProofBundleV2 :=
  {b | ∃ setId slot d wire r, (LedgerCall.recordApproval setId slot d wire, r) ∈ events
    ∧ decodeProofBundleV2 P wire = .ok b}

/-- Every decision of `ds` was returned by a release call. -/
def Released (s : Releases ω) (ds : Set V2ReleasedDecision) : Prop :=
  ∀ d ∈ ds, ∃ n request result, s.At n request (.ret result) ∧ result.status = .released
    ∧ result.decision = some d

/-! ## One claim, one bundle -/

/-- Receipts with one body name one bundle. -/
theorem bundleHash_of_body {r r' : VerificationReceiptV2} {b : Bytes}
    (h : verificationReceiptV2Body r = .ok b) (h' : verificationReceiptV2Body r' = .ok b) :
    r.bundleHash = r'.bundleHash := by
  have hdecoded := decodeVerificationReceiptBodyV2_body h
  have hdecoded' := decodeVerificationReceiptBodyV2_body h'
  have hsame : r.atShape .body = r'.atShape .body :=
    Except.ok.inj (hdecoded.symm.trans hdecoded')
  have hbundle : (r.atShape .body).bundleHash = (r'.atShape .body).bundleHash :=
    congrArg VerificationReceiptV2.bundleHash hsame
  exact hbundle

/-- A released decision is about the claim of its handoff. -/
theorem claimId_of_released {request : ReleaseRequest} {result : V2ReleaseResult}
    {log : List (StoreCall × V2StoreResult StoreReply)} {d : V2ReleasedDecision}
    (h : (releaseV2Decision P request).Leads log (.ret result))
    (hstatus : result.status = .released) (hd : result.decision = some d) :
    d.claimId = request.committed.claimId := by
  obtain hidle | ⟨record, published, ack, before, rest, -, -, -, hsettles⟩ :=
    releaseV2Decision_leads h
  · exact absurd hstatus (hidle.unreleased _ rfl)
  obtain ⟨rfl, -, -⟩ := hsettles.released _ rfl hstatus
  obtain rfl := Option.some.inj hd
  rfl

theorem receipt_eq_ok {d : V2ReleasedDecision} {r : VerificationReceiptV2}
    (h : d.receipt = .ok r) : decodeVerificationReceiptV2 d.receiptWire = .ok r := by
  unfold V2ReleasedDecision.receipt at h
  split at h
  case isTrue => cases h
  case isFalse => exact h

/-- What a released decision stands on: a released call about its claim, and a published
entry of the log with the committed body of that claim. -/
def StandsOn (P : Primitives) (s : Releases ω) (d : V2ReleasedDecision)
    (receipt : VerificationReceiptV2) : Prop :=
  ∃ n request r x now i e, request.committed.claimId = d.claimId
    ∧ ReleasedOn P s n request d r x receipt now
    ∧ PublishedEntry s.shared.store r.receiptBody x i e

theorem ReleasesSound.standsOn {s : Releases ω} {labels : List (Action ReleaseRequest OtherCall)}
    {shared : Anchored ω} (h : ReleasesSound P s)
    (run : ReleaseRun P anchor (Pool.init shared) labels s)
    (hinj : Set.InjOn P.sha384 (releaseTexts s)) {ds : Set V2ReleasedDecision}
    (hreleased : Released s ds) {d : V2ReleasedDecision} (hd : d ∈ ds)
    {receipt : VerificationReceiptV2} (hreceipt : d.receipt = .ok receipt) :
    StandsOn P s d receipt := by
  obtain ⟨n, request, result, hat, hstatus, hresult⟩ := hreleased d hd
  obtain ⟨decision, r, x, receipt', now, hdecision, hon⟩ := h.released run hinj hat hstatus
  obtain rfl := Option.some.inj (hresult.symm.trans hdecision)
  have hclaim := claimId_of_released (Pool.leads run hat) hstatus hresult
  obtain rfl := Except.ok.inj (hon.decoded.symm.trans (receipt_eq_ok hreceipt))
  obtain ⟨i, e, hentry⟩ := h.releasedEntry run hinj hon.claim hon.record hon.outcome
  exact ⟨n, request, r, x, now, i, e, hclaim.symm, hon, hentry⟩

/-- Decisions on one claim name one bundle. -/
theorem StandsOn.bundleHash {s : Releases ω} {d d' : V2ReleasedDecision}
    {receipt receipt' : VerificationReceiptV2} (h : StandsOn P s d receipt)
    (h' : StandsOn P s d' receipt') (hclaim : d.claimId = d'.claimId) :
    receipt.bundleHash = receipt'.bundleHash := by
  obtain ⟨_, request, r, _, _, _, _, hid, hon, -⟩ := h
  obtain ⟨_, request', r', _, _, _, _, hid', hon', -⟩ := h'
  have hsame : request.committed.claimId = request'.committed.claimId := by
    rw [hid, hid', hclaim]
  have hfound := hon.claim
  rw [hsame] at hfound
  obtain rfl := Option.some.inj (hfound.symm.trans hon'.claim)
  exact bundleHash_of_body hon.body hon'.body

/-! ## One slot for one claim -/

/-- In a set, approvals that name one bundle are in one slot: the bundle ends at one root. -/
theorem Approves.slot_eq {bs : Set ProofBundleV2} (hinj : Set.InjOn P.sha384 (bundleTexts P bs))
    {state : ApprovalState} (hfresh : freshApprovalState P state.set = .ok state.emptied)
    {slot slot' : Fin 2} {shown shown' : PresentedApproval} {wire wire' : Bytes}
    (h : Approves P state slot shown) (h' : Approves P state slot' shown')
    (hdecoded : decodeProofBundleV2 P wire = .ok shown.bundle)
    (hdecoded' : decodeProofBundleV2 P wire' = .ok shown'.bundle)
    (hmem : shown.bundle ∈ bs) (hmem' : shown'.bundle ∈ bs)
    (hhash : shown.receipt.bundleHash = shown'.receipt.bundleHash) : slot = slot' := by
  have hbundle : shown.bundle = shown'.bundle :=
    bundleHashV2_injOn hinj hmem hmem' hdecoded hdecoded' h.hash (by rw [hhash]; exact h'.hash)
  obtain ⟨root, hroot, hid, -⟩ := h.root
  obtain ⟨root', hroot', hid', -⟩ := h'.root
  rw [hbundle, hroot'] at hroot
  obtain rfl := Option.some.inj hroot
  have hsame : state.rootIds slot = state.rootIds slot' := hid.symm.trans hid'
  obtain ⟨-, -, hne, -, -⟩ := freshApprovalState_eq_ok hfresh
  by_contra hslots
  obtain ⟨rfl, rfl⟩ | ⟨rfl, rfl⟩ : slot = 0 ∧ slot' = 1 ∨ slot = 1 ∧ slot' = 0 := by omega
  · exact hne hsame
  · exact hne hsame.symm

theorem mem_presentedDecisions {events : List LedgerEvent} {setId : String} {slot : Nat}
    {d : V2ReleasedDecision} {wire : Bytes} (h : Accepted events setId slot d wire) :
    d ∈ presentedDecisions events := by
  obtain ⟨complete, h⟩ := h
  exact ⟨setId, slot, wire, _, h⟩

theorem mem_presentedBundles {events : List LedgerEvent} {setId : String} {slot : Nat}
    {d : V2ReleasedDecision} {wire : Bytes} {b : ProofBundleV2}
    (h : Accepted events setId slot d wire) (hb : decodeProofBundleV2 P wire = .ok b) :
    b ∈ presentedBundles P events := by
  obtain ⟨complete, h⟩ := h
  exact ⟨setId, slot, _, wire, _, h, hb⟩

/-! ## The law -/

/-- What holds of a ledger whose presented decisions were released by the store of `s`. -/
structure DualRoot (P : Primitives) (s : Releases ω) (events : List LedgerEvent) : Prop where
  oneSlot : ∀ id id' slot slot' d d' wire wire', Accepted events id slot d wire →
    Accepted events id' slot' d' wire' → (d.claimId = d'.claimId ↔ id = id' ∧ slot = slot')
  once : (executedSets events).Nodup
  executed : ∀ before after id first second,
    events = before ++ (.execute id first second, .ok .executed) :: after →
    ∃ state shown, Execution P before id first second state shown
      ∧ (∀ slot, StandsOn P s (shown slot).decision (shown slot).receipt)
      ∧ (shown 0).decision.claimId ≠ (shown 1).decision.claimId

/-- However release calls on one store and calls of the ledger are interleaved, if every
decision shown to the ledger was released by that store then accepted claims and filled
slots name each other, and a set executes at most once, on two released decisions about two
claims, one ending at each of its roots and each with a published receipt. -/
theorem dualRoot_law {now leaseSeconds : Int} {logId : String} {verifierKey : HybridPublicKey}
    {start : StoreState} {device : ω} {labels : List (Action ReleaseRequest OtherCall)}
    {s : Releases ω} {events : List LedgerEvent} {t : Ledger}
    (hnew : StoreState.new P now leaseSeconds logId verifierKey = .ok start)
    (run : ReleaseRun P anchor (Pool.init { store := start, device }) labels s)
    (ledger : LedgerRun P .empty events t) (hreleased : Released s (presentedDecisions events))
    (hinj : Set.InjOn P.sha384 (releaseTexts s ∪ bundleTexts P (presentedBundles P events))) :
    DualRoot P s events := by
  have hsound : ReleasesSound P s := ReleaseRun.sound (.initial hnew) run
  have hlaw := ledgerRun_inv ledger
  have htexts := hinj.mono Set.subset_union_left
  have hbundles := hinj.mono Set.subset_union_right
  have hstands : ∀ id slot d wire receipt, Accepted events id slot d wire →
      d.receipt = .ok receipt → StandsOn P s d receipt := by
    intro id slot d wire receipt hacc hreceipt
    exact hsound.standsOn run htexts hreleased (mem_presentedDecisions hacc) hreceipt
  have honeSlot : ∀ id id' slot slot' d d' wire wire', Accepted events id slot d wire →
      Accepted events id' slot' d' wire' → (d.claimId = d'.claimId ↔ id = id' ∧ slot = slot') := by
    intro id id' slot slot' d d' wire wire' h h'
    constructor
    · intro hclaim
      obtain rfl := ledger.oneSet h h' hclaim
      obtain ⟨u, a, hslot, hu, ha, had, -⟩ := hlaw.accepted _ _ _ _ h
      obtain ⟨u', a', hslot', hu', ha', had', -⟩ := hlaw.accepted _ _ _ _ h'
      obtain rfl := Option.some.inj (hu.symm.trans hu')
      obtain ⟨x, wx, rfl, hxdec, hxapp, hxacc⟩ := hlaw.filled _ _ _ _ hu ha
      obtain ⟨y, wy, rfl, hydec, hyapp, hyacc⟩ := hlaw.filled _ _ _ _ hu ha'
      have hxy : x.decision.claimId = y.decision.claimId := had.trans (hclaim.trans had'.symm)
      have hhash := (hstands _ _ _ _ _ hxacc hxapp.receipt).bundleHash
        (hstands _ _ _ _ _ hyacc hyapp.receipt) hxy
      have hslots := hxapp.slot_eq hbundles (hlaw.opened _ _ hu).1 hyapp hxdec hydec
        (mem_presentedBundles hxacc hxdec) (mem_presentedBundles hyacc hydec) hhash
      exact ⟨rfl, congrArg Fin.val hslots⟩
    · rintro ⟨rfl, rfl⟩
      exact ledger.oneClaim h h'
  refine { oneSlot := honeSlot, once := hlaw.once, executed := ?_ }
  rintro before after id first second rfl
  obtain ⟨state, shown, hexec⟩ := ledger.execution
  have haccepted : ∀ slot : Fin 2, ∃ wire,
      Accepted (before ++ (.execute id first second, .ok .executed) :: after) id slot
        (shown slot).decision wire := by
    intro slot
    obtain ⟨wire, -, complete, hmem⟩ := hexec.accepted slot
    exact ⟨wire, complete, List.mem_append_left _ hmem⟩
  refine ⟨state, shown, hexec, fun slot => ?_, fun hclaim => ?_⟩
  · obtain ⟨wire, hacc⟩ := haccepted slot
    exact hstands _ _ _ _ _ hacc (hexec.approves slot).receipt
  · obtain ⟨_, hzero⟩ := haccepted 0
    obtain ⟨_, hone⟩ := haccepted 1
    obtain ⟨-, hslots⟩ := (honeSlot _ _ _ _ _ _ _ _ hzero hone).mp hclaim
    exact absurd hslots (by decide)

/-! ## Two releases and their set -/

/-- What an allow has in the store: the hash of its bundle, and the texts and the digest of
its receipt. -/
structure StoredAllow where
  bundleHash : String
  terminal : Bytes
  body : Bytes
  wire : Bytes
  digest : Bytes

/-- The head of the log behind a first entry. -/
def secondHead (digest : Bytes) : ReceiptV2Head :=
  { firstHead with sequence := 1, headHash := digest, acceptedDigests := [(1, digest)] }

theorem validateReceiptHead_second {digest : Bytes} (hlength : digest.length = 48)
    (hzero : digest ≠ zeroHash) : validateReceiptHead (secondHead digest) = .ok () := by
  have hid : validV2Id (secondHead digest).verifierId = true := hexEncode_first 1
  have hvalid := @validateHead_numbered firstHead.logId [digest]
    (genesis_valid_iff.mpr ⟨by decide, by decide⟩) (by simpa using hlength) (by simpa using hzero)
    (by simp [maxSafe])
  rw [validateReceiptHead, if_neg (by rw [hid]; simp)]
  exact hvalid

/-- The record of a claim that was just made. -/
def approvalRecord (n : UInt8) (bundleHash : String) : ClaimRecord :=
  newClaimRecord (approvalClaim n bundleHash) ((counting []).sha256 firstToken) 160 100

/-- The record of an allow at a place of the log. -/
def allowedApproval (n : UInt8) (a : StoredAllow) (index : Nat) : ClaimRecord :=
  (approvalRecord n a.bundleHash).commit a.terminal a.body 500 100 index

def publishedEntry (n : UInt8) (a : StoredAllow) : OutboxEntry :=
  { claimId := (approvalClaim n "").claimId, body := a.body, wire := some a.wire, digest := a.digest
    ack := none }

/-- The first store with the claims and the log of the run, while acknowledgements are
withheld. -/
def runStore (claims : OrderedMap String ClaimRecord) (outbox : List OutboxEntry) : StoreState :=
  { firstStore with ackWithheld := true, claims, outbox }

/-- The claim of the first root. -/
def firstClaims (a : StoredAllow) : OrderedMap String ClaimRecord :=
  OrderedMap.empty.insert (approvalClaim 4 "").claimId (approvalRecord 4 a.bundleHash)

/-- The claims of both roots. -/
def bothClaims (a b : StoredAllow) : OrderedMap String ClaimRecord :=
  (firstClaims a).insert (approvalClaim 5 "").claimId (approvalRecord 5 b.bundleHash)

/-- The first is allowed. -/
def firstAllowed (a b : StoredAllow) : StoreState :=
  runStore ((bothClaims a b).insert (approvalClaim 4 "").claimId (allowedApproval 4 a 0))
    [committedEntry (approvalClaim 4 "").claimId a.body]

/-- Both are allowed. -/
def allowedClaims (a b : StoredAllow) : OrderedMap String ClaimRecord :=
  ((bothClaims a b).insert (approvalClaim 4 "").claimId (allowedApproval 4 a 0)).insert
    (approvalClaim 5 "").claimId (allowedApproval 5 b 1)

def bothAllowed (a b : StoredAllow) : StoreState :=
  runStore (allowedClaims a b) [committedEntry (approvalClaim 4 "").claimId a.body,
    committedEntry (approvalClaim 5 "").claimId b.body]

/-- The receipt of the first is published. -/
def firstPublished (a b : StoredAllow) : StoreState :=
  runStore (allowedClaims a b)
    [publishedEntry 4 a, committedEntry (approvalClaim 5 "").claimId b.body]

/-- Both receipts are published. -/
def bothPublished (a b : StoredAllow) : StoreState :=
  runStore (allowedClaims a b) [publishedEntry 4 a, publishedEntry 5 b]

/-- Both receipts are acknowledged. -/
def bothAcknowledged (a b : StoredAllow) : StoreState :=
  { firstStore with
    claims := allowedClaims a b
    outbox :=
      [{ publishedEntry 4 a with ack := some (entryAcknowledgement 0 a.digest 100) },
       { publishedEntry 5 b with ack := some (entryAcknowledgement 1 b.digest 100) }] }

theorem found_bothAllowed (a b : StoredAllow) :
    (bothAllowed a b).claims.get? (approvalClaim 4 "").claimId = some (allowedApproval 4 a 0)
      ∧ (bothAllowed a b).claims.get? (approvalClaim 5 "").claimId
        = some (allowedApproval 5 b 1) :=
  ⟨(OrderedMap.get?_insert_of_ne _ _ approvalClaim_ids).trans (OrderedMap.get?_insert_self _ _ _),
    OrderedMap.get?_insert_self _ _ _⟩

/-- The texts of both allows, with the digests of their receipts. -/
structure BothTexts (table : List Bytes) (a b : StoredAllow) (signable signable' : Bytes) : Prop where
  first : AllowTexts 4 a.bundleHash firstHead a.terminal a.body a.wire signable
  second : AllowTexts 5 b.bundleHash (secondHead a.digest) b.terminal b.body b.wire signable'
  head : validateReceiptHead (secondHead a.digest) = .ok ()
  digest : a.digest = tableDigest table (statementBodyText 8 signable)
  digest' : b.digest = tableDigest table (statementBodyText 8 signable')

/-- The claim of the first root is made. -/
theorem claims_first (table : List Bytes) (a : StoredAllow) :
    Performs (counting table) (none : StoreAnchor Unit) { store := runStore .empty [], device := () }
      (.claim (approvalClaim 4 a.bundleHash) (.ok firstToken), .ok (.claimed
        { disposition := .created, claimedAt := 100, ownerToken := firstToken }))
      { store := runStore (firstClaims a) [], device := () } :=
  performs_claim (clockReady_first rfl rfl)
    (claimIdMatchesKey_of_derived _ rfl List.length_replicate rfl) rfl rfl rfl

/-- The claim of the second is made. -/
theorem claims_second (table : List Bytes) (a b : StoredAllow) :
    Performs (counting table) (none : StoreAnchor Unit)
      { store := runStore (firstClaims a) [], device := () }
      (.claim (approvalClaim 5 b.bundleHash) (.ok firstToken), .ok (.claimed
        { disposition := .created, claimedAt := 100, ownerToken := firstToken }))
      { store := runStore (bothClaims a b) [], device := () } :=
  performs_claim (clockReady_first rfl rfl)
    (claimIdMatchesKey_of_derived _ rfl List.length_replicate rfl)
    (OrderedMap.get?_insert_of_ne _ _ approvalClaim_ids.symm) rfl rfl

theorem live_bothClaims (table : List Bytes) (a b : StoredAllow) :
    OwnerLive (counting table) (approvalClaim 4 "").claimId firstToken
      (approvalRecord 4 a.bundleHash) (runStore (bothClaims a b) []) where
  ready := clockReady_first rfl rfl
  found := (OrderedMap.get?_insert_of_ne _ _ approvalClaim_ids).trans
    (OrderedMap.get?_insert_self _ _ _)
  owner := rfl
  evaluating := rfl
  afterClaim := le_refl _
  leaseLive := show (100 : Int) < 160 by decide

theorem live_firstAllowed (table : List Bytes) (a b : StoredAllow) :
    OwnerLive (counting table) (approvalClaim 5 "").claimId firstToken
      (approvalRecord 5 b.bundleHash) (firstAllowed a b) where
  ready := clockReady_first rfl rfl
  found := (OrderedMap.get?_insert_of_ne _ _ approvalClaim_ids.symm).trans
    (OrderedMap.get?_insert_self _ _ _)
  owner := rfl
  evaluating := rfl
  afterClaim := le_refl _
  leaseLive := show (100 : Int) < 160 by decide

theorem allows_first {table : List Bytes} {a b : StoredAllow} {signable signable' : Bytes}
    (h : BothTexts table a b signable signable') :
    Performs (counting table) (none : StoreAnchor Unit)
      { store := runStore (bothClaims a b) [], device := () }
      (.finalize (approvalClaim 4 "").claimId firstToken a.terminal a.body 500,
        .ok (.committed true)) { store := firstAllowed a b, device := () } :=
  performs_finalization (live_bothClaims table a b) (h.first.payload _ _)
    (decodeVerificationReceiptBodyV2_body h.first.body) rfl
    (show ¬ ((500 : Int) > 0 ∧ ((100 : Int) ≥ 500 ∨ (100 : Int) ≥ 1000)) by decide) rfl

theorem allows_second {table : List Bytes} {a b : StoredAllow} {signable signable' : Bytes}
    (h : BothTexts table a b signable signable') :
    Performs (counting table) (none : StoreAnchor Unit) { store := firstAllowed a b, device := () }
      (.finalize (approvalClaim 5 "").claimId firstToken b.terminal b.body 500,
        .ok (.committed true)) { store := bothAllowed a b, device := () } :=
  performs_finalization (live_firstAllowed table a b) (h.second.payload _ _)
    (decodeVerificationReceiptBodyV2_body h.second.body) rfl
    (show ¬ ((500 : Int) > 0 ∧ ((100 : Int) ≥ 500 ∨ (100 : Int) ≥ 1000)) by decide) rfl

/-- The run up to the allows. -/
theorem run_bothAllowed {table : List Bytes} {a b : StoredAllow} {signable signable' : Bytes}
    (h : BothTexts table a b signable signable') :
    ∃ labels, ReleaseRun (counting table) (none : StoreAnchor Unit)
      (Pool.init { store := firstStore, device := () }) labels
      (Pool.init { store := bothAllowed a b, device := () }) := by
  have hwithhold : Performs (counting table) (none : StoreAnchor Unit)
      { store := firstStore, device := () } (.setAcknowledgementWithheld true, .ok .configured)
      { store := runStore .empty [], device := () } := rfl
  exact ⟨_, ((((ReleaseRun.before .nil (by simp) hwithhold).before (by simp)
    (claims_first table a)).before (by simp) (claims_second table a b)).before (by simp)
    (allows_first h)).before (by simp) (allows_second h)⟩

namespace BothTexts

variable {table : List Bytes} {a b : StoredAllow} {signable signable' : Bytes}

theorem publishes_first (h : BothTexts table a b signable signable') :
    Performs (counting table) (none : StoreAnchor Unit) { store := bothAllowed a b, device := () }
      (.publish (approvalClaim 4 "").claimId a.body fun _ _ => .ok tabledSignature,
        .ok (.published a.wire)) { store := firstPublished a b, device := () } := by
  have hdigest := h.first.digest (counting table)
  change _ = Except.ok (tableDigest table _) at hdigest
  rw [← h.digest] at hdigest
  have happendable : Appendable (approvalClaim 4 "").claimId a.body 0 (bothAllowed a b) := by
    refine { committed := ?_, pending := rfl, open_ := rfl, next := by simp, signing := rfl }
    simp only [committedIndex, (found_bothAllowed a b).1, allowedApproval, ClaimRecord.commit,
      and_self, ↓reduceIte]
    rfl
  have hsigned := h.first.signs (accepting_counting table) validateReceiptHead_first rfl
    (by simp [firstHead, maxSafe]) rfl
  exact performs_publish happendable rfl hsigned h.first.wire hdigest

theorem publishes_second (h : BothTexts table a b signable signable') :
    Performs (counting table) (none : StoreAnchor Unit) { store := firstPublished a b, device := () }
      (.publish (approvalClaim 5 "").claimId b.body fun _ _ => .ok tabledSignature,
        .ok (.published b.wire)) { store := bothPublished a b, device := () } := by
  have hdigest := h.second.digest (counting table)
  change _ = Except.ok (tableDigest table _) at hdigest
  rw [← h.digest'] at hdigest
  have hfound : (firstPublished a b).claims.get? (approvalClaim 5 "").claimId
      = some (allowedApproval 5 b 1) := (found_bothAllowed a b).2
  have happendable : Appendable (approvalClaim 5 "").claimId b.body 1 (firstPublished a b) := by
    refine { committed := ?_, pending := rfl, open_ := rfl, next := ?_, signing := rfl }
    · simp only [committedIndex, hfound, allowedApproval, ClaimRecord.commit, and_self, ↓reduceIte]
      rfl
    · rintro ⟨-, hpending⟩
      cases hpending
  have hsigned := h.second.signs (accepting_counting table) h.head rfl
    (by simp [secondHead, maxSafe]) rfl
  exact performs_publish happendable rfl hsigned h.second.wire hdigest

end BothTexts

/-- Both receipts are acknowledged when acknowledgements are resumed. -/
theorem resumes_bothPublished (table : List Bytes) (a b : StoredAllow) :
    Performs (counting table) (none : StoreAnchor Unit) { store := bothPublished a b, device := () }
      (.setAcknowledgementWithheld false, .ok .configured)
      { store := bothAcknowledged a b, device := () } :=
  @performs_of_apply _ (counting table) none _ (fun _ => StoreReply.configured) _
    (StoreCall.setAcknowledgementWithheld false) _ _ _ rfl
    (setAcknowledgementWithheld_resumes (s := { store := bothPublished a b, device := () })
      (clockReady_first rfl rfl) rfl rfl)

/-- Both receipts are published and acknowledged. -/
theorem run_bothAcknowledged {table : List Bytes} {a b : StoredAllow} {signable signable' : Bytes}
    (h : BothTexts table a b signable signable') :
    ∃ labels, ReleaseRun (counting table) (none : StoreAnchor Unit)
      (Pool.init { store := firstStore, device := () }) labels
      (Pool.init { store := bothAcknowledged a b, device := () }) := by
  obtain ⟨labels, hrun⟩ := run_bothAllowed h
  exact ⟨_, ((hrun.before (by simp) h.publishes_first).before (by simp) h.publishes_second).before
    (by simp) (resumes_bothPublished table a b)⟩

/-- An allow that is committed, published and acknowledged is ready for its release. -/
theorem readyToRelease_allow {table : List Bytes} {n : UInt8} {a : StoredAllow}
    {head : ReceiptV2Head} {signable : Bytes} {index : Nat} {s : StoreState}
    (htexts : AllowTexts n a.bundleHash head a.terminal a.body a.wire signable)
    (hdigest : a.digest = tableDigest table (statementBodyText 8 signable))
    (hlogged : head.logId = firstStore.logId) (hplace : head.sequence = index)
    (hnamed : (approvalClaim n "").claimId ≠ "")
    (hfound : s.claims.get? (approvalClaim n "").claimId = some (allowedApproval n a index))
    (hlog : s.logId = firstStore.logId)
    (hpredecessor : 0 < index → ∃ previous, (s.outbox[index - 1]?).bind (·.ack) = some previous
      ∧ releasePredecessor (signedAllow n a.bundleHash head) (.ok (.acknowledged previous)) = .ok ())
    (hentry : (s.outbox[index]?).bind (·.ack) = some (entryAcknowledgement index a.digest 100))
    (hclock : ClockReady s) (hnow : s.now = 100) :
    ReadyToRelease (counting table) (handoff (approvalClaim n a.bundleHash) a.body a.wire 500)
      (allowedApproval n a index)
      { wire := a.wire, receipt := signedAllow n a.bundleHash head, entryHash := a.digest }
      (entryAcknowledgement index a.digest 100) index s := by
  have hbody : verificationReceiptV2Body (signedAllow n a.bundleHash head) = .ok a.body := htexts.body
  have hentryHash : verificationReceiptV2Digest (counting table) (signedAllow n a.bundleHash head)
      = .ok a.digest := hdigest ▸ htexts.digest (counting table)
  have hsequence : (signedAllow n a.bundleHash head).sequence = (index : Int) + 1 :=
    congrArg (· + 1) hplace
  exact
    { preflight := releasePreflight_handoff hnamed hbody
      found := hfound
      terminal := rfl
      unreleased := rfl
      loaded := releaseLoaded_handoff rfl rfl hlogged rfl hbody htexts.wire hentryHash
      sequence := hsequence
      log := hlogged.trans hlog.symm
      predecessor := hpredecessor
      entry := hentry
      acknowledged := releaseAcknowledged_entry hlogged hsequence rfl
      clock := hclock
      inTime := by
        rw [hnow]
        rfl }

/-- The decision of a released allow. -/
theorem releasedResult_allow (n : UInt8) (a : StoredAllow) (head : ReceiptV2Head) :
    (releasedResult (handoff (approvalClaim n a.bundleHash) a.body a.wire 500).committed
        { wire := a.wire, receipt := signedAllow n a.bundleHash head, entryHash := a.digest } 100)
      = { status := .released, reason := "", decision := some (approvalDecision n a.wire) } := by
  have hallow : (signedAllow n a.bundleHash head).decision = "allow" := rfl
  simp only [releasedResult, hallow, if_true]
  rfl

/-- Both claims are released, one after the other. -/
structure BothReleased (table : List Bytes) (a b : StoredAllow)
    (labels : List (Action ReleaseRequest OtherCall)) (s : Releases Unit) : Prop where
  run : ReleaseRun (counting table) (none : StoreAnchor Unit)
    (Pool.init { store := firstStore, device := () }) labels s
  clients : ∃ r r', s.clients
    = [(handoff (approvalClaim 4 a.bundleHash) a.body a.wire 500, .ret r),
       (handoff (approvalClaim 5 b.bundleHash) b.body b.wire 500, .ret r')]
    ∧ r = { status := .released, reason := "", decision := some (approvalDecision 4 a.wire) }
    ∧ r' = { status := .released, reason := "", decision := some (approvalDecision 5 b.wire) }
  bodies : BodiesIn [a.body, b.body] s.shared.store
  outbox : s.shared.store.outbox = (bothAcknowledged a b).outbox

theorem bodiesIn_bothAcknowledged (a b : StoredAllow) :
    BodiesIn [a.body, b.body] (bothAcknowledged a b) := by
  refine bodiesIn_insert_both (bothClaims a b) rfl (fun key hone htwo => ?_)
    List.mem_cons_self (List.mem_cons_of_mem _ List.mem_cons_self)
  exact (OrderedMap.get?_insert_of_ne _ _ htwo).trans (OrderedMap.get?_insert_of_ne _ _ hone)

namespace BothTexts

variable {table : List Bytes} {a b : StoredAllow} {signable signable' : Bytes}

theorem ready_first (h : BothTexts table a b signable signable') :
    ReadyToRelease (counting table) (handoff (approvalClaim 4 a.bundleHash) a.body a.wire 500)
      (allowedApproval 4 a 0)
      { wire := a.wire, receipt := signedAllow 4 a.bundleHash firstHead, entryHash := a.digest }
      (entryAcknowledgement 0 a.digest 100) 0 (bothAcknowledged a b) :=
  readyToRelease_allow h.first h.digest rfl rfl approvalClaim_named.1 (found_bothAllowed a b).1 rfl
    (fun h => absurd h (lt_irrefl 0)) rfl (clockReady_first rfl rfl) rfl

/-- The second is ready when the first is released. -/
theorem ready_second (h : BothTexts table a b signable signable') {x : V2ReleaseRecord}
    (hx : x.claimId = (approvalClaim 4 "").claimId) :
    ReadyToRelease (counting table) (handoff (approvalClaim 5 b.bundleHash) b.body b.wire 500)
      (allowedApproval 5 b 1)
      { wire := b.wire, receipt := signedAllow 5 b.bundleHash (secondHead a.digest)
        entryHash := b.digest }
      (entryAcknowledgement 1 b.digest 100) 1
      (releaseRecorded x (bothAcknowledged a b).ticked) := by
  have hpredecessor : releasePredecessor (signedAllow 5 b.bundleHash (secondHead a.digest))
      (.ok (.acknowledged (entryAcknowledgement 0 a.digest 100))) = .ok () := by
    simp only [releasePredecessor, okOr_bind_iff, stopIf_eq_ok_iff, Bool.or_eq_false_iff]
    exact ⟨_, rfl, ⟨bne_self_eq_false _, bne_self_eq_false _⟩, bne_self_eq_false _⟩
  have hother : (approvalClaim 5 "").claimId ≠ x.claimId := by
    rw [hx]
    exact approvalClaim_ids.symm
  exact readyToRelease_allow h.second h.digest' rfl rfl approvalClaim_named.2
    ((get?_releaseRecorded_of_ne hother).trans (found_bothAllowed a b).2) rfl
    (fun _ => ⟨entryAcknowledgement 0 a.digest 100, rfl, hpredecessor⟩) rfl
    (clockReady_first rfl rfl) rfl

end BothTexts

theorem exists_bothReleased {table : List Bytes} {a b : StoredAllow} {signable signable' : Bytes}
    (h : BothTexts table a b signable signable') : ∃ labels s, BothReleased table a b labels s := by
  obtain ⟨labels, hrun⟩ := run_bothAcknowledged h
  obtain ⟨labels', t, hfirst, hclients, hstore⟩ := h.ready_first.releases AnchorAccepts.none
    (u := Pool.init { store := bothAcknowledged a b, device := () })
  have hready := h.ready_second (x := releasedRecord
    (handoff (approvalClaim 4 a.bundleHash) a.body a.wire 500).committed
    { wire := a.wire, receipt := signedAllow 4 a.bundleHash firstHead, entryHash := a.digest }
    (entryAcknowledgement 0 a.digest 100)) rfl
  have hshared : t.shared.store = releaseRecorded _ (bothAcknowledged a b).ticked := hstore
  rw [← hshared] at hready
  obtain ⟨labels'', s, hsecond, hclients', hstore'⟩ := hready.releases AnchorAccepts.none
  have hbodies : BodiesIn [a.body, b.body] t.shared.store := by
    rw [hshared]
    exact BodiesIn.releaseRecorded (s := (bothAcknowledged a b).ticked)
      (bodiesIn_bothAcknowledged a b) _
  have houtbox : t.shared.store.outbox = (bothAcknowledged a b).outbox := by
    rw [hshared]
    rfl
  refine ⟨labels ++ labels' ++ labels'', s, ?_⟩
  exact
    { run := (hrun.append hfirst).append hsecond
      clients := by
        rw [hclients', hclients]
        exact ⟨_, _, rfl, releasedResult_allow 4 a firstHead,
          releasedResult_allow 5 b (secondHead a.digest)⟩
      bodies := by
        rw [hstore']
        exact BodiesIn.releaseRecorded (s := t.shared.store.ticked) hbodies _
      outbox := by
        rw [hstore']
        exact houtbox }

/-- The text whose SHA-384 names the bundle with the wire form `wire`. -/
def bundleText (wire : Bytes) : Bytes := utf8 "ratify-protocol-bundle-v2\x00" ++ wire

theorem bundleHashOfBytes_append {table : List Bytes} (rest : List Bytes) {wire : Bytes}
    (h : bundleText wire ∈ table) :
    bundleHashOfBytes (counting (table ++ rest)) wire = bundleHashOfBytes (counting table) wire := by
  have hhash : ∀ table, bundleHashOfBytes (counting table) wire
      = "sha384:" ++ hexEncode (tableDigest table (bundleText wire)) := by
    intro table
    simp only [bundleHashOfBytes, sha384, List.flatten_cons, List.flatten_nil, List.append_nil]
    rfl
  rw [hhash, hhash, tableDigest_append rest h]

/-- The wire forms of the bundles of both roots. -/
structure BothBundles (wire wire' : Bytes) : Prop where
  first : ∀ table, decodeProofBundleV2 (counting table) wire = .ok (approvalBundle 4)
    ∧ encodeProofBundleV2 (counting table) (approvalBundle 4) = .ok wire
  second : ∀ table, decodeProofBundleV2 (counting table) wire' = .ok (approvalBundle 5)
    ∧ encodeProofBundleV2 (counting table) (approvalBundle 5) = .ok wire'

/-- The texts that are hashed in the run, in the order in which they are computed. -/
def dualTable (wire wire' signable signable' body body' : Bytes) : List Bytes :=
  [[], bundleText wire, bundleText wire', statementBodyText 8 signable, statementBodyText 8 signable',
    outboxText body, outboxText body']

/-- Each text is computed from the hashes of those before it in the table. -/
theorem exists_bothTexts (wire wire' : Bytes) : ∃ a b signable signable',
    BothTexts (dualTable wire wire' signable signable' a.body b.body) a b signable signable'
      ∧ a.bundleHash = bundleHashOfBytes
        (counting (dualTable wire wire' signable signable' a.body b.body)) wire
      ∧ b.bundleHash = bundleHashOfBytes
        (counting (dualTable wire wire' signable signable' a.body b.body)) wire' := by
  let bundles := [[], bundleText wire, bundleText wire']
  obtain ⟨terminal, body, receipt, signable, hfirst⟩ := @exists_allowTexts 4 (by decide)
    (bundleHashOfBytes (counting bundles) wire)
    (validPrefixedDigest_bundleHash (counting bundles) wire) _ validateReceiptHead_first rfl
    (by simp [firstHead, maxSafe]) rfl
  let entries := [[], bundleText wire, bundleText wire', statementBodyText 8 signable]
  have hhead : validateReceiptHead (secondHead (tableDigest entries (statementBodyText 8 signable)))
      = .ok () :=
    validateReceiptHead_second ((counting entries).length_sha384 _)
      (noZeroHash_counting (by simp) signable)
  obtain ⟨terminal', body', receipt', signable', hsecond⟩ := @exists_allowTexts 5 (by decide)
    (bundleHashOfBytes (counting bundles) wire')
    (validPrefixedDigest_bundleHash (counting bundles) wire') _ hhead rfl
    (by simp [secondHead, maxSafe]) rfl
  let a : StoredAllow :=
    { bundleHash := bundleHashOfBytes (counting bundles) wire, terminal, body, wire := receipt
      digest := tableDigest entries (statementBodyText 8 signable) }
  let b : StoredAllow :=
    { bundleHash := bundleHashOfBytes (counting bundles) wire', terminal := terminal', body := body'
      wire := receipt'
      digest := tableDigest (dualTable wire wire' signable signable' body body')
        (statementBodyText 8 signable') }
  refine ⟨a, b, signable, signable', ?_, ?_, ?_⟩
  · exact
      { first := hfirst, second := hsecond, head := hhead
        digest := (tableDigest_append [statementBodyText 8 signable', outboxText body,
          outboxText body'] (by simp [entries])).symm
        digest' := rfl }
  · exact (bundleHashOfBytes_append [statementBodyText 8 signable, statementBodyText 8 signable',
      outboxText body, outboxText body'] (by simp [bundles])).symm
  · exact (bundleHashOfBytes_append [statementBodyText 8 signable, statementBodyText 8 signable',
      outboxText body, outboxText body'] (by simp [bundles])).symm

/-- The texts that are hashed when both claims are released are in the table. -/
theorem releaseTexts_both (wire wire' : Bytes) {signable signable' : Bytes} {table : List Bytes}
    {a b : StoredAllow} {labels : List (Action ReleaseRequest OtherCall)} {s : Releases Unit}
    (h : BothTexts table a b signable signable') (hs : BothReleased table a b labels s) :
    releaseTexts s ⊆ {t | t ∈ dualTable wire wire' signable signable' a.body b.body} := by
  refine releaseTexts_subset [a.wire, b.wire] hs.bodies ?_ ?_ ?_ ?_
  · intro c hc
    obtain ⟨r, r', hclients, -⟩ := hs.clients
    rw [hclients] at hc
    obtain rfl | hc := List.mem_cons.mp hc
    · exact ⟨List.mem_cons_self, a.wire, List.mem_cons_self, rfl⟩
    · rw [List.mem_singleton.mp hc]
      exact ⟨List.mem_cons_of_mem _ List.mem_cons_self, b.wire,
        List.mem_cons_of_mem _ List.mem_cons_self, rfl⟩
  · intro i w hw
    rw [wireAt, hs.outbox] at hw
    rcases i with _ | _ | i
    · rw [← Option.some.inj hw]
      exact List.mem_cons_self
    · rw [← Option.some.inj hw]
      exact List.mem_cons_of_mem _ List.mem_cons_self
    · cases hw
  · simp [dualTable]
  · intro w hw
    obtain rfl | hw := List.mem_cons.mp hw
    · exact ⟨_, signable, h.first.decoded, h.first.signable, by simp [dualTable]⟩
    · rw [List.mem_singleton.mp hw]
      exact ⟨_, signable', h.second.decoded, h.second.signable, by simp [dualTable]⟩

/-- What is shown to the ledger is released, and the bundles are in the table. -/
theorem presented_both {wire wire' : Bytes} (signable signable' : Bytes) {table : List Bytes}
    {a b : StoredAllow} {labels : List (Action ReleaseRequest OtherCall)} {s : Releases Unit}
    (hbundles : BothBundles wire wire') (hs : BothReleased table a b labels s) :
    Released s (presentedDecisions (approvalEvents wire a.wire wire' b.wire))
      ∧ bundleTexts (counting table)
          (presentedBundles (counting table) (approvalEvents wire a.wire wire' b.wire))
        ⊆ {t | t ∈ dualTable wire wire' signable signable' a.body b.body} := by
  have hcalls : ∀ setId slot d w r, (LedgerCall.recordApproval setId slot d w, r)
      ∈ approvalEvents wire a.wire wire' b.wire →
      (d = some (approvalDecision 4 a.wire) ∧ w = wire)
        ∨ (d = some (approvalDecision 5 b.wire) ∧ w = wire') := by
    intro setId slot d w r hmem
    simp only [approvalEvents, List.mem_cons, List.not_mem_nil, or_false, Prod.mk.injEq,
      LedgerCall.recordApproval.injEq, reduceCtorEq, false_and, false_or] at hmem
    obtain ⟨⟨-, -, rfl, rfl⟩, -⟩ | ⟨⟨-, -, rfl, rfl⟩, -⟩ := hmem
    · exact .inl ⟨rfl, rfl⟩
    · exact .inr ⟨rfl, rfl⟩
  constructor
  · rintro d ⟨setId, slot, w, r, hmem⟩
    obtain ⟨_, _, hclients, rfl, rfl⟩ := hs.clients
    obtain ⟨hd, -⟩ | ⟨hd, -⟩ := hcalls _ _ _ _ _ hmem
    · obtain rfl := Option.some.inj hd
      exact ⟨0, _, _, by rw [Pool.At, hclients]; rfl, rfl, rfl⟩
    · obtain rfl := Option.some.inj hd
      exact ⟨1, _, _, by rw [Pool.At, hclients]; rfl, rfl, rfl⟩
  · rintro t ⟨bundle, ⟨setId, slot, d, w, r, hmem, hdecoded⟩, e, hencoded, rfl⟩
    obtain ⟨-, rfl⟩ | ⟨-, rfl⟩ := hcalls _ _ _ _ _ hmem
    · obtain ⟨hbundle, hwire⟩ := hbundles.first table
      obtain rfl := Except.ok.inj (hdecoded.symm.trans hbundle)
      obtain rfl := Except.ok.inj (hencoded.symm.trans hwire)
      simp [dualTable, bundleText]
    · obtain ⟨hbundle, hwire⟩ := hbundles.second table
      obtain rfl := Except.ok.inj (hdecoded.symm.trans hbundle)
      obtain rfl := Except.ok.inj (hencoded.symm.trans hwire)
      simp [dualTable, bundleText]

/-- With a set that is opened, approved by two released decisions and executed. -/
theorem dualRoot_law_approval : ∃ (P : Primitives) (s : Releases Unit) (events : List LedgerEvent),
    DualRoot P s events ∧ executedSets events = ["approval"] := by
  obtain ⟨wire, hfirst⟩ := exists_approvalBundle 4
  obtain ⟨wire', hsecond⟩ := exists_approvalBundle 5
  obtain ⟨a, b, signable, signable', htexts, hhash, hhash'⟩ := exists_bothTexts wire wire'
  generalize htable : dualTable wire wire' signable signable' a.body b.body = table at *
  obtain ⟨labels, s, hs⟩ := exists_bothReleased htexts
  obtain ⟨t, hledger⟩ := exists_approvalRun
    (htexts.first.rootApproval hhash (hfirst table).1 (hfirst table).2)
    (htexts.second.rootApproval hhash' (hsecond table).1 (hsecond table).2)
  obtain ⟨hreleased, hpresented⟩ := presented_both signable signable'
    { first := hfirst, second := hsecond } hs
  have hinj : Set.InjOn (tableDigest table) {t | t ∈ table} :=
    tableDigest_injOn (by simp [← htable, dualTable])
  have hreleases := releaseTexts_both wire wire' htexts hs
  rw [htable] at hreleases hpresented
  exact ⟨counting table, s, _, dualRoot_law (accepting_counting table).new_firstStore hs.run hledger
    hreleased (hinj.mono (Set.union_subset hreleases hpresented)), rfl⟩

end RatifyProtocol.V2
