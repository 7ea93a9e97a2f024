import RatifyProtocol.Foundation.HashChain
import RatifyProtocol.V2.LogVerify
set_option autoImplicit false

/-!
# V2: log verification folds to one history

A verifier that stores every appended digest and freezes on a fork accepts the
entries `1 .. head` of one hash chain, whatever is presented to it and in
whatever order, and two verifiers with equal heads accepted the same digests.
-/

namespace RatifyProtocol.V2

open Foundation

/-! ## Signed logs -/

/-- A log as one verifier reads it: its entries, their validity under the
verifier's key and log ID, and the verification against a head. -/
structure SignedLog (α : Type) where
  /-- The object type of the entries. -/
  code : Nat
  sequence : α → Int
  previous : α → Bytes
  /-- The signable body. -/
  body : α → V2Result Bytes
  digest : α → V2Result Bytes
  verify : α → WitnessV2Head → V2Result WitnessEntryV2Result
  /-- The entry is of this log and validly signed under its key. -/
  Signed : α → Prop

variable (P : Primitives)

/-- The witness log `logId` under a witness key. -/
def witnessLog (key : HybridPublicKey) (logId : String) : SignedLog WitnessEntryV2 where
  code := 6
  sequence := WitnessEntryV2.sequence
  previous := WitnessEntryV2.prevHash
  body := witnessEntryV2SignableBytes
  digest := witnessEntryV2Digest P
  verify e head := verifyWitnessEntryV2 P e head key
  Signed e :=
    (∃ wire, encodeWitnessEntryV2 e = .ok wire) ∧ keyIdV2 P key = .ok e.witnessId
      ∧ e.logId = logId ∧ ∃ body, witnessEntryV2SignableBytes e = .ok body
        ∧ verifyV2Statement P .witnessEntry body e.signature key = .ok ()

/-- The receipt log `logId` of a verifier under its key. -/
def receiptLog (key : HybridPublicKey) (verifierId logId : String) :
    SignedLog VerificationReceiptV2 where
  code := 8
  sequence := VerificationReceiptV2.sequence
  previous := VerificationReceiptV2.previousReceiptHash
  body := verificationReceiptV2SignableBytes
  digest := verificationReceiptV2Digest P
  verify r head := verifyVerificationReceiptV2 P r key (head.ofVerifier verifierId)
  Signed r :=
    (∃ wire, encodeVerificationReceiptV2 r = .ok wire) ∧ keyIdV2 P key = .ok r.verifierId
      ∧ r.verifierId = verifierId ∧ r.logId = logId
      ∧ ∃ body, verificationReceiptV2SignableBytes r = .ok body
        ∧ verifyV2Statement P .verificationReceipt body r.signature key = .ok ()

/-- The logs of the protocol, with the log ID each is kept under. -/
inductive IsLog : {α : Type} → String → SignedLog α → Prop
  | witness (key : HybridPublicKey) (logId : String) : IsLog logId (witnessLog P key logId)
  | receipt (key : HybridPublicKey) (verifierId logId : String) :
      IsLog logId (receiptLog P key verifierId logId)

/-! ## The verifier's state -/

/-- The state before the first entry. -/
def WitnessV2Head.genesis (logId : String) : WitnessV2Head :=
  { logId, sequence := 0, headHash := zeroHash, acceptedDigests := [], frozen := false }

/-- Store the digest of an appended entry and make it the head. -/
def WitnessV2Head.append (head : WitnessV2Head) (sequence : Int) (digest : Bytes) : WitnessV2Head :=
  { head with
    sequence, headHash := digest
    acceptedDigests := OrderedMap.place sequence digest head.acceptedDigests }

def WitnessV2Head.freeze (head : WitnessV2Head) : WitnessV2Head := { head with frozen := true }

/-- The state passes `validate_head`. -/
def WitnessV2Head.Valid (head : WitnessV2Head) : Prop :=
  validateHead head.logId head.sequence head.headHash head.acceptedDigests = .ok ()

namespace SignedLog

variable {α β : Type}

/-- A digest, or nothing where there is none. -/
def digestOf (r : V2Result Bytes) : Bytes :=
  match r with
  | .ok digest => digest
  | .error _ => []

variable (L : SignedLog α)

/-- What the verifier does with one presented entry. -/
def present (head : WitnessV2Head) (e : α) : WitnessV2Head :=
  match L.verify e head with
  | .ok .appended => head.append (L.sequence e) (digestOf (L.digest e))
  | .ok .replay => head
  | .error x => if x.cls = .logFork then head.freeze else head

/-- The state after presented entries. -/
def run (logId : String) (es : List α) : WitnessV2Head := es.foldl L.present (.genesis logId)

/-- The entries as a hash chain. -/
def chain : HashChain α Bytes where
  previous := L.previous
  digest e := digestOf (L.digest e)
  genesis := zeroHash

/-- Entries newest first take the positions down to `1`. -/
def Positioned : List α → Prop
  | [] => True
  | e :: es => L.sequence e = (es.length : Int) + 1 ∧ Positioned es

/-- The state holds exactly the entries `accepted`, newest first. -/
structure History (logId : String) (accepted : List α) (head : WitnessV2Head) : Prop where
  logId : head.logId = logId
  signed : ∀ e ∈ accepted, L.Signed e
  positioned : L.Positioned accepted
  linked : L.chain.Linked accepted
  sequence : head.sequence = accepted.length
  headHash : head.headHash = L.chain.head accepted
  digests : head.acceptedDigests = numbered (accepted.map L.chain.digest)

/-- The bytes hashed for the entries of this log among `es`. -/
def texts (es : List α) : Set Bytes :=
  {t | ∃ e ∈ es, L.Signed e ∧ ∃ b, L.body e = .ok b ∧ t = statementBodyText L.code b}

end SignedLog

/-! ## What the two verifications decide -/

variable {P}

/-- The verification of a log: an entry that is not validly signed is refused
without a fork, and a validly signed one is placed by its digest. -/
structure SignedLog.Decides {α : Type} (P : Primitives) (logId : String) (L : SignedLog α) :
    Prop where
  placed : ∀ {e : α} {head : WitnessV2Head}, L.Signed e → head.logId = logId → head.Valid →
    ∃ b, L.body e = .ok b ∧ L.digest e = .ok (P.sha384 (statementBodyText L.code b))
      ∧ L.verify e head
        = logPosition (L.sequence e) (L.previous e) (P.sha384 (statementBodyText L.code b)) head
  refused : ∀ {e : α} {head : WitnessV2Head}, ¬ L.Signed e → head.logId = logId →
    (∀ r, L.verify e head ≠ .ok r) ∧ Avoids .logFork (L.verify e head)
  bounds : ∀ {e : α}, L.Signed e → 0 < L.sequence e ∧ L.sequence e ≤ maxSafe

theorem decides_witnessLog (key : HybridPublicKey) (logId : String) :
    (witnessLog P key logId).Decides P logId where
  placed := by
    intro e head hsigned hlog hhead
    obtain ⟨⟨wire, hwire⟩, hkey, hid, body, hbody, hverify⟩ := hsigned
    obtain ⟨hvalid, hlengths, -⟩ := encodeWitnessEntryV2_eq_ok_iff.mp hwire
    have hdigest : witnessEntryV2Digest P e = .ok (P.sha384 (statementBodyText 6 body)) :=
      witnessEntryV2Digest_of_signable hbody
    have hchecked : validateWitnessEntry e true = .ok () :=
      validateWitnessEntry_eq_ok_iff.mpr ⟨hvalid, fun _ => hlengths⟩
    refine ⟨body, hbody, hdigest, ?_⟩
    have hsame : ¬ (e.witnessId ≠ e.witnessId ∨ e.logId ≠ head.logId) := by
      rw [hid, hlog]
      simp
    unfold WitnessV2Head.Valid at hhead
    simp only [witnessLog, verifyWitnessEntryV2, classify_eq_ok_iff.mpr hchecked,
      classify_eq_ok_iff.mpr hwire, hhead, hkey, hsame, ↓reduceIte, hbody, hverify, hdigest, ok_bind]
  refused := by
    intro e head hsigned hlog
    constructor
    · intro r hr
      apply hsigned
      obtain ⟨_, _, hr⟩ := bind_eq_ok_iff.mp hr
      obtain ⟨wire, hwire, hr⟩ := bind_eq_ok_iff.mp hr
      obtain ⟨_, _, hr⟩ := bind_eq_ok_iff.mp hr
      obtain ⟨witnessId, hkey, hr⟩ := bind_eq_ok_iff.mp hr
      split at hr
      · cases hr
      · rename_i hsame
        rw [not_or, not_ne_iff, not_ne_iff] at hsame
        obtain ⟨body, hbody, hr⟩ := bind_eq_ok_iff.mp hr
        obtain ⟨⟨⟩, hverify, -⟩ := bind_eq_ok_iff.mp hr
        exact ⟨⟨wire, classify_eq_ok_iff.mp hwire⟩, hsame.1 ▸ hkey, hsame.2.trans hlog, body, hbody,
          hverify⟩
    · refine avoids_bind (avoids_classify (by decide) (avoids_logFork_validateWitnessEntry e true))
        fun _ _ => ?_
      refine avoids_bind (avoids_classify (by decide) (avoids_logFork_encodeWitnessEntry e))
        fun wire hwire => ?_
      refine avoids_bind (avoids_logFork_validateHead _ _ _ _) fun _ _ => ?_
      refine avoids_bind (avoids_logFork_keyIdV2 P key) fun witnessId hkey => ?_
      split
      · exact avoids_err (by decide) _
      · rename_i hsame
        rw [not_or, not_ne_iff, not_ne_iff] at hsame
        obtain ⟨hvalid, -⟩ := encodeWitnessEntryV2_eq_ok_iff.mp (classify_eq_ok_iff.mp hwire)
        obtain ⟨body, hbody⟩ := exists_witnessSignable hvalid
        rw [hbody, ok_bind]
        -- the signature cannot verify: it is all that is left of being validly signed
        refine avoids_bind (avoids_logFork_verifyV2Statement P _ _ _ _) fun _ hverify => ?_
        exact absurd ⟨⟨wire, classify_eq_ok_iff.mp hwire⟩, hsame.1 ▸ hkey, hsame.2.trans hlog, body,
          hbody, hverify⟩ hsigned
  bounds := by
    intro e hsigned
    obtain ⟨⟨wire, hwire⟩, -⟩ := hsigned
    obtain ⟨hvalid, -⟩ := encodeWitnessEntryV2_eq_ok_iff.mp hwire
    exact ⟨hvalid.sequence_pos, hvalid.sequence_le⟩

theorem decides_receiptLog (key : HybridPublicKey) (verifierId logId : String) :
    (receiptLog P key verifierId logId).Decides P logId where
  placed := by
    intro r head hsigned hlog hhead
    obtain ⟨⟨wire, hwire⟩, hkey, hid, hname, body, hbody, hverify⟩ := hsigned
    obtain ⟨hposition, hvalid, hlengths, -⟩ := encodeVerificationReceiptV2_eq_ok_iff.mp hwire
    have hdigest : verificationReceiptV2Digest P r = .ok (P.sha384 (statementBodyText 8 body)) :=
      verificationReceiptV2Digest_of_signable hposition hvalid hbody
    have hchecked : validateReceipt r true = .ok () :=
      validateReceipt_eq_ok_iff.mpr ⟨hposition, hvalid, fun _ => hlengths⟩
    refine ⟨body, hbody, hdigest, ?_⟩
    have hhead' : validateReceiptHead (head.ofVerifier verifierId) = .ok () := by
      have hverifier : (!validV2Id verifierId) = false := by
        rw [← hid, validV2Id_of_keyIdV2 P hkey, Bool.not_true]
      rw [validateReceiptHead, WitnessV2Head.ofVerifier, hverifier]
      exact hhead
    have hsame : ¬ (r.logId ≠ (head.ofVerifier verifierId).logId
        ∨ r.verifierId ≠ (head.ofVerifier verifierId).verifierId) := by
      rw [hname, ← hlog, hid]
      simp [WitnessV2Head.ofVerifier]
    have hown : ¬ r.verifierId ≠ r.verifierId := fun h => h rfl
    simp only [receiptLog, verifyVerificationReceiptV2, classify_eq_ok_iff.mpr hchecked,
      classify_eq_ok_iff.mpr hwire, hhead', hsame, ↓reduceIte, hkey, hown, hbody, hverify, hdigest,
      ok_bind]
    rfl
  refused := by
    intro r head hsigned hlog
    constructor
    · intro outcome hr
      apply hsigned
      obtain ⟨_, _, hr⟩ := bind_eq_ok_iff.mp hr
      obtain ⟨wire, hwire, hr⟩ := bind_eq_ok_iff.mp hr
      obtain ⟨_, _, hr⟩ := bind_eq_ok_iff.mp hr
      split at hr
      · cases hr
      rename_i hsame
      rw [not_or, not_ne_iff, not_ne_iff] at hsame
      obtain ⟨id, hkey, hr⟩ := bind_eq_ok_iff.mp hr
      split at hr
      · cases hr
      rename_i hown
      rw [not_ne_iff] at hown
      obtain ⟨body, hbody, hr⟩ := bind_eq_ok_iff.mp hr
      obtain ⟨⟨⟩, hverify, -⟩ := bind_eq_ok_iff.mp hr
      exact ⟨⟨wire, classify_eq_ok_iff.mp hwire⟩, hown ▸ hkey, hsame.2, hsame.1.trans hlog, body,
        hbody, hverify⟩
    · refine avoids_bind (avoids_classify (by decide) (avoids_logFork_validateReceipt r true))
        fun _ _ => ?_
      refine avoids_bind (avoids_classify (by decide) (avoids_logFork_encodeVerificationReceipt r))
        fun wire hwire => ?_
      refine avoids_bind (avoids_logFork_validateReceiptHead _) fun _ _ => ?_
      split
      · exact avoids_err (by decide) _
      rename_i hsame
      rw [not_or, not_ne_iff, not_ne_iff] at hsame
      refine avoids_bind (avoids_logFork_keyIdV2 P key) fun id hkey => ?_
      split
      · exact avoids_err (by decide) _
      rename_i hown
      rw [not_ne_iff] at hown
      obtain ⟨hposition, hvalid, -⟩ :=
        encodeVerificationReceiptV2_eq_ok_iff.mp (classify_eq_ok_iff.mp hwire)
      obtain ⟨body, hbody⟩ :=
        (wireDocument_receipt hposition hvalid .signable).exists_canonical
      rw [← receiptCj_eq] at hbody
      rw [show verificationReceiptV2SignableBytes r = .ok body from hbody, ok_bind]
      refine avoids_bind (avoids_logFork_verifyV2Statement P _ _ _ _) fun _ hverify => ?_
      exact absurd ⟨⟨wire, classify_eq_ok_iff.mp hwire⟩, hown ▸ hkey, hsame.2, hsame.1.trans hlog,
        body, hbody, hverify⟩ hsigned
  bounds := by
    intro r hsigned
    obtain ⟨⟨wire, hwire⟩, -⟩ := hsigned
    obtain ⟨hposition, -⟩ := encodeVerificationReceiptV2_eq_ok_iff.mp hwire
    exact ⟨hposition.sequence_pos, hposition.sequence_le⟩

theorem IsLog.decides {α : Type} {logId : String} {L : SignedLog α} (h : IsLog P logId L) :
    L.Decides P logId := by
  cases h with
  | witness key => exact decides_witnessLog key logId
  | receipt key verifierId => exact decides_receiptLog key verifierId logId

/-- A receipt's signable body determines its link and position. -/
theorem place_eq_of_receiptSignable {r r' : VerificationReceiptV2} {b : Bytes}
    (hposition : PositionValid r) (hbody : BodyValid r) (hposition' : PositionValid r')
    (hbody' : BodyValid r') (h : verificationReceiptV2SignableBytes r = .ok b)
    (h' : verificationReceiptV2SignableBytes r' = .ok b) :
    r.previousReceiptHash = r'.previousReceiptHash ∧ r.sequence = r'.sequence := by
  have hdoc := wireDocument_receipt hposition hbody .signable
  have hdoc' := wireDocument_receipt hposition' hbody' .signable
  rw [verificationReceiptV2SignableBytes, receiptCj_eq] at h h'
  obtain ⟨n, o, hn, ho, -, hview⟩ := hdoc.exists_view h
  obtain ⟨n', o', hn', ho', -, hview'⟩ := hdoc'.exists_view h'
  obtain rfl := Except.ok.inj (hn.symm.trans hn')
  obtain rfl := Except.ok.inj (ho.symm.trans ho')
  have hsame : r.atShape .signable = r'.atShape .signable :=
    Except.ok.inj ((receiptFrom_of_view hview hposition hbody).symm.trans
      (receiptFrom_of_view hview' hposition' hbody'))
  have hprevious := congrArg VerificationReceiptV2.previousReceiptHash hsame
  have hsequence := congrArg VerificationReceiptV2.sequence hsame
  exact ⟨hprevious, hsequence⟩

/-- Entries of logs of one object type with one body have one link and position. -/
theorem IsLog.place_eq {α β : Type} {i j : String} {L : SignedLog α} {M : SignedLog β}
    (hL : IsLog P i L) (hM : IsLog P j M) (hcode : L.code = M.code) {e : α} {e' : β}
    (he : L.Signed e) (he' : M.Signed e') {b : Bytes} (hb : L.body e = .ok b)
    (hb' : M.body e' = .ok b) : L.previous e = M.previous e' ∧ L.sequence e = M.sequence e' := by
  cases hL with
  | witness key =>
    cases hM with
    | witness key' =>
      have hsame := unsigned_eq_of_witnessSignable hb hb'
      have hprevious := congrArg WitnessEntryV2.prevHash hsame
      have hsequence := congrArg WitnessEntryV2.sequence hsame
      exact ⟨hprevious, hsequence⟩
    | receipt key' verifierId => exact absurd hcode (by simp [witnessLog, receiptLog])
  | receipt key verifierId =>
    cases hM with
    | witness key' => exact absurd hcode (by simp [witnessLog, receiptLog])
    | receipt key' verifierId' =>
      obtain ⟨⟨wire, hwire⟩, -⟩ := he
      obtain ⟨⟨wire', hwire'⟩, -⟩ := he'
      obtain ⟨hposition, hbody, -⟩ := encodeVerificationReceiptV2_eq_ok_iff.mp hwire
      obtain ⟨hposition', hbody', -⟩ := encodeVerificationReceiptV2_eq_ok_iff.mp hwire'
      exact place_eq_of_receiptSignable hposition hbody hposition' hbody' hb hb'

theorem IsLog.code_lt {α : Type} {logId : String} {L : SignedLog α} (h : IsLog P logId L) :
    L.code < 65536 := by
  cases h with
  | witness key => simp [witnessLog]
  | receipt key verifierId => simp [receiptLog]

end RatifyProtocol.V2
