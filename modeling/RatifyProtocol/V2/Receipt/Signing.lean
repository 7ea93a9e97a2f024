import RatifyProtocol.V2.Receipt.Log
import RatifyProtocol.V2.Receipt.RoundTrip
set_option autoImplicit false

/-!
# Receipts: entry hash and signing

An encoded receipt decodes to itself, every valid receipt has an entry hash, and a
prepared body that binds to the head of a log is signed there whenever the signature
verifies and the signed receipt still fits.
-/

namespace RatifyProtocol.V2

open Foundation

variable {P : Primitives}

/-! ## The wire form and the entry hash -/

/-- An encoded receipt decodes to itself. -/
theorem decodeVerificationReceiptV2_encode {r : VerificationReceiptV2} {b : Bytes}
    (h : encodeVerificationReceiptV2 r = .ok b) : decodeVerificationReceiptV2 b = .ok r := by
  obtain ⟨hposition, hbody, hsignature, hb, hlen⟩ := encodeVerificationReceiptV2_eq_ok_iff.mp h
  have hsize : checkV2WireSize b "verification receipt" "MAX_VERIFICATION_RECEIPT_BYTES_V2"
      maxVerificationReceiptBytesV2 = .ok () := by
    rw [checkV2WireSize, refuseIf_eq_ok_iff, decide_eq_false_iff_not, not_lt]
    exact hlen
  have hdoc := wireDocument_receipt hposition hbody .wire
  rw [receiptCj_eq] at hb
  obtain ⟨n, hn, hd⟩ := hdoc.parseWire_ok hb
  obtain ⟨o, ho, hview⟩ := objView_of_denotes hd hdoc.keys
  have hfrom : receiptFrom o = .ok r := receiptFrom_of_view hview hposition hbody
  obtain ⟨hrequire, honly⟩ := shapeFields_of_view hview
  simp only [shapeFields] at hrequire honly
  have hvalid : validateReceipt r true = .ok () :=
    validateReceipt_eq_ok_iff.mpr ⟨hposition, hbody, fun _ => hsignature⟩
  simp only [decodeVerificationReceiptV2, classify_eq_ok_iff, hsize, hn, ho, hrequire, honly,
    hfrom, hvalid, h, ok_bind, ↓reduceIte]

/-- A short receipt is short at the end of its log. -/
theorem ShortReceipt.atEnd {r : VerificationReceiptV2} (h : ShortReceipt r) :
    ShortReceipt (bodyAtEnd r) :=
  { h with
    position := positionValid_atEnd r
    body := bodyValid_atEnd_iff.mpr h.body
    signature := signatureLengths_placeholder }

/-- A receipt that is short at the end of its log has a body. -/
theorem ShortReceipt.exists_body {r : VerificationReceiptV2} (h : ShortReceipt (bodyAtEnd r)) :
    WireFits r ∧ ∃ body, verificationReceiptV2Body r = .ok body := by
  have hvalid := bodyValid_atEnd_iff.mp h.body
  obtain ⟨wire, hwire⟩ := (wireDocument_receipt h.position h.body .wire).exists_canonical
  have hlimit : 4 * 16000 ≤ maxVerificationReceiptBytesV2 := by decide
  have hfits : WireFits r := ⟨wire, hwire,
    (length_canonical hwire).2.trans ((Nat.mul_le_mul_left 4 h.textLength_le).trans hlimit)⟩
  obtain ⟨body, hbody⟩ := (wireDocument_receipt (positionValid_atGenesis r)
    (bodyValid_atGenesis_iff.mpr hvalid) .body).exists_canonical
  exact ⟨hfits, body, verificationReceiptV2Body_eq_ok_iff.mpr ⟨hvalid, hfits, hbody⟩⟩

theorem positionValid_signable (r : VerificationReceiptV2) :
    PositionValid (r.atShape .signable) ↔ PositionValid r :=
  ⟨fun h => ⟨h.logId, h.hex, h.sequence_pos, h.sequence_le, h.previous, h.link⟩,
    fun h => ⟨h.logId, h.hex, h.sequence_pos, h.sequence_le, h.previous, h.link⟩⟩

theorem bodyValid_signable (r : VerificationReceiptV2) :
    BodyValid (r.atShape .signable) ↔ BodyValid r :=
  ⟨fun h => ⟨h.version, h.verifiedAt, h.verifierId, h.agentId, h.bundleHash, h.issuers,
      h.assessments⟩,
    fun h => ⟨h.version, h.verifiedAt, h.verifierId, h.agentId, h.bundleHash, h.issuers,
      h.assessments⟩⟩

theorem signatureMember_eq_none {n : JNode} {o : Obj} (ho : obj n = .ok o)
    (habsent : ∀ k ∈ ["signature", "old_signature", "new_signature"], o.get k = none) :
    signatureMember n = none := by
  obtain ⟨fields, hv⟩ : ∃ fields, n.v = .obj fields := by
    unfold obj at ho
    split at ho
    · exact ⟨_, ‹_›⟩
    · cases ho
  have hfields : o = fields := by
    simp only [obj, hv, Except.ok.injEq] at ho
    exact ho.symm
  simp only [signatureMember, hv, List.find?_eq_none]
  intro k hk
  have hnone := habsent k hk
  rw [Obj.get, Option.map_eq_none_iff, hfields] at hnone
  rw [Bool.not_eq_true, List.any_eq_false]
  intro m hm
  exact List.find?_eq_none.mp hnone m hm

/-- Every valid receipt has an entry hash. -/
theorem exists_verificationReceiptV2Digest (P : Primitives) {r : VerificationReceiptV2}
    (hposition : PositionValid r) (hbody : BodyValid r) :
    ∃ digest, verificationReceiptV2Digest P r = .ok digest := by
  have hdoc := wireDocument_receipt hposition hbody .signable
  obtain ⟨b, hb⟩ := hdoc.exists_canonical
  obtain ⟨n, hn, hd⟩ := hdoc.parseWire_ok hb
  obtain ⟨o, ho, hview⟩ := objView_of_denotes hd hdoc.keys
  have hnode : canonicalNode n = b := canonicalNode_of_denotes hdoc.fits hd hb
  have hfrom : receiptFrom o = .ok (r.atShape .signable) :=
    receiptFrom_of_view hview hposition hbody
  have hunsigned : ∀ k ∈ ["signature", "old_signature", "new_signature"], o.get k = none :=
    fun k hk => hview.get_absent (receiptShapeMembers_unsigned (by simp) hk)
  have hmember : signatureMember n = none := signatureMember_eq_none ho hunsigned
  obtain ⟨hrequire, honly⟩ := shapeFields_of_view hview
  simp only [shapeFields] at hrequire honly
  have hvalid : validateReceipt (r.atShape .signable) false = .ok () :=
    validateReceipt_eq_ok_iff.mpr ⟨(positionValid_signable r).mpr hposition,
      (bodyValid_signable r).mpr hbody, by simp⟩
  have hvalid' : validateReceipt r false = .ok () :=
    validateReceipt_eq_ok_iff.mpr ⟨hposition, hbody, by simp⟩
  have hsignature : o.get "signature" = none := hunsigned _ List.mem_cons_self
  have hcanonical : canonical (receiptCj (r.atShape .signable) .signable) = .ok b := hb
  have hsignable : validateReceiptSignableBody b = .ok () := by
    simp only [validateReceiptSignableBody, hn, ho, hrequire, hsignature, honly, hfrom, hvalid,
      hcanonical, ok_bind, refuseIf, Option.isSome_none, bne_self_eq_false, Bool.false_eq_true,
      ↓reduceIte]
  have hcj : canonical (receiptCj r .signable) = .ok b := hb
  have hdigest : receiptBodyDigestV2 P b = .ok (P.sha384
      (utf8 "ratify-protocol-statement-body-v2\x00" ++ u16BeBytes 8 ++ b)) := by
    simp only [receiptBodyDigestV2, withContext_eq_ok_iff.mpr hn, ok_bind, hmember, hnode,
      hsignable, refuseIf, bne_self_eq_false, Bool.false_eq_true, ↓reduceIte]
  refine ⟨P.sha384 (utf8 "ratify-protocol-statement-body-v2\x00" ++ u16BeBytes 8 ++ b), ?_⟩
  rw [← hdigest, verificationReceiptV2Digest, hvalid', ok_bind, hcj, ok_bind]

/-! ## Signing a prepared body -/

/-- A prepared body at a position of a log. -/
def VerificationReceiptV2.atHead (r : VerificationReceiptV2) (head : ReceiptV2Head) :
    VerificationReceiptV2 :=
  { r with
    logId := head.logId, sequence := head.sequence + 1, previousReceiptHash := head.headHash
    signature := noSignature }

/-- The receipt with its signature. -/
def VerificationReceiptV2.signed (r : VerificationReceiptV2) (signature : HybridSignature) :
    VerificationReceiptV2 :=
  { r with signature }

theorem bodyValid_atHead (r : VerificationReceiptV2) (head : ReceiptV2Head)
    (signature : HybridSignature) :
    BodyValid ((r.atHead head).signed signature) ↔ BodyValid r :=
  ⟨fun h => ⟨h.version, h.verifiedAt, h.verifierId, h.agentId, h.bundleHash, h.issuers,
      h.assessments⟩,
    fun h => ⟨h.version, h.verifiedAt, h.verifierId, h.agentId, h.bundleHash, h.issuers,
      h.assessments⟩⟩

/-- A prepared body binds to every open head of its verifier's log. -/
theorem bindVerificationReceiptBodyV2_ok {r : VerificationReceiptV2} {data : Bytes}
    {head : ReceiptV2Head} (hdata : verificationReceiptV2Body r = .ok data)
    (hhead : validateReceiptHead head = .ok ()) (hopen : head.frozen = false)
    (hroom : head.sequence ≠ maxSafe) (hverifier : r.verifierId = head.verifierId)
    (hposition : PositionValid (r.atHead head)) :
    bindVerificationReceiptBodyV2 data head = .ok (r.atHead head) := by
  have hbody := (verificationReceiptV2Body_eq_ok_iff.mp hdata).1
  have hvalid : validateReceipt (r.atHead head) false = .ok () :=
    validateReceipt_eq_ok_iff.mpr ⟨hposition, (bodyValid_atHead r head _).mpr hbody, by simp⟩
  have hsequence : (head.frozen || head.sequence == maxSafe) = false := by
    rw [hopen, Bool.false_or, beq_eq_false_iff_ne]
    exact hroom
  have hname : ((r.atShape .body).verifierId != head.verifierId) = false := by
    rw [bne_eq_false_iff_eq]
    exact hverifier
  simp only [bindVerificationReceiptBodyV2, hhead, ok_bind, hsequence, refuseIf,
    decodeVerificationReceiptBodyV2_body hdata, hname, Bool.false_eq_true, ↓reduceIte]
  change (do validateReceipt (r.atHead head) false; Except.ok (r.atHead head)) = _
  rw [hvalid, ok_bind]

/-- A bound body is signed when its signature verifies and the receipt fits. -/
theorem signPreparedVerificationReceiptV2WithSigner_ok {r : VerificationReceiptV2}
    {data wire : Bytes} {head : ReceiptV2Head} {signer : SignerV2} {signature : HybridSignature}
    (hdata : verificationReceiptV2Body r = .ok data)
    (hbound : bindVerificationReceiptBodyV2 data head = .ok (r.atHead head))
    (hkey : keyIdV2 P signer.publicKey = .ok r.verifierId)
    (hstatement : ∀ signable, verificationReceiptV2SignableBytes (r.atHead head) = .ok signable →
      signV2StatementWithSigner P .verificationReceipt signable signer = .ok signature)
    (hwire : encodeVerificationReceiptV2 ((r.atHead head).signed signature) = .ok wire) :
    signPreparedVerificationReceiptV2WithSigner P data head signer
      = .ok ((r.atHead head).signed signature) := by
  obtain ⟨hposition, hbody, -⟩ := encodeVerificationReceiptV2_eq_ok_iff.mp hwire
  have hposition' : PositionValid (r.atHead head) :=
    ⟨hposition.logId, hposition.hex, hposition.sequence_pos, hposition.sequence_le,
      hposition.previous, hposition.link⟩
  have hbody' : BodyValid (r.atHead head) := (bodyValid_atHead r head _).mpr
    ((bodyValid_atHead r head signature).mp hbody)
  have hvalid : liftObject (classify .malformed (validateReceipt (r.atHead head) false)) = .ok () := by
    rw [show validateReceipt (r.atHead head) false = .ok () from
      validateReceipt_eq_ok_iff.mpr ⟨hposition', hbody', by simp⟩]
    rfl
  obtain ⟨signable, hsignable⟩ :=
    (wireDocument_receipt hposition' hbody' .signable).exists_canonical
  have hbytes : liftObject (classify .malformed (verificationReceiptV2SignableBytes (r.atHead head)))
      = .ok signable := by
    rw [show verificationReceiptV2SignableBytes (r.atHead head) = .ok signable from hsignable]
    rfl
  have hencoded : liftObject (classify .malformed
      (encodeVerificationReceiptV2 ((r.atHead head).signed signature))) = .ok wire := by
    rw [hwire]
    rfl
  have hsigned : signVerificationReceiptV2WithSigner P (r.atHead head) signer
      = .ok ((r.atHead head).signed signature) := by
    have hname : ¬ (r.verifierId ≠ (r.atHead head).verifierId) := fun h => h rfl
    simp only [signVerificationReceiptV2WithSigner, hvalid, hkey, hname, hbytes,
      hstatement signable hsignable, ok_bind, ↓reduceIte]
    exact congrArg (fun x => x >>= fun _ => Except.ok ((r.atHead head).signed signature)) hencoded
  have hsame : verificationReceiptV2Body ((r.atHead head).signed signature) = .ok data := hdata
  simp only [signPreparedVerificationReceiptV2WithSigner, hbound, liftObject, Except.mapError,
    ok_bind, hsigned, hsame, ↓reduceIte]

end RatifyProtocol.V2
