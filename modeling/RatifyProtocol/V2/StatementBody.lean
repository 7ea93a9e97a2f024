import RatifyProtocol.V2.Receipt.Signing
import RatifyProtocol.V2.Rotation.Statement
import RatifyProtocol.V2.Witness
set_option autoImplicit false

/-!
# V2: statement body digests

`statement_body_digest_v2` of `v2/rotation.rs`, with the signable-body checks of
`v2/wire.rs` it dispatches to.  Only a body that its own object type produces is
hashed, so the digest of a witness entry, a rotation statement or a receipt is
defined exactly when the object is valid.
-/

namespace RatifyProtocol.V2

open Foundation

/-! ## Signable bodies of the status objects -/

/-- Accepts exactly the bytes that a valid list's signable form produces. -/
def validateRevocationListSignableBody (body : Bytes) : V2Result Unit :=
  withContext (do
    let root ← parseWire body [] []
    let o ← obj root
    o.require (listFields.take 6) []
    o.only (listFields.take 6)
    let version ← o.i64 "version"
    let issuerId ← o.str "issuer_id"
    let updatedAt ← o.i64 "updated_at"
    let nextUpdate ← o.i64 "next_update"
    let sequence ← o.i64 "sequence"
    let revoked ← revokedFrom o
    let l : RevocationListV2 :=
      { version, issuerId, updatedAt, nextUpdate, sequence, revoked, signature := noSignature }
    let own ← revocationListV2SignableBytes l
    refuseIf (own != body) "must use RatifyCanonicalJSON") "revocation list signable body"

/-- Accepts exactly the bytes that a valid push's signable form produces. -/
def validateRevocationPushSignableBody (body : Bytes) : V2Result Unit :=
  withContext (do
    let root ← parseWire body [] []
    let o ← obj root
    o.require (pushFields.take 5) []
    o.only (pushFields.take 5)
    let version ← o.i64 "version"
    let issuerId ← o.str "issuer_id"
    let sequence ← o.i64 "sequence"
    let pushedAt ← o.i64 "pushed_at"
    let revoked ← revokedFrom o
    let p : RevocationPushV2 :=
      { version, issuerId, sequence, pushedAt, revoked, signature := noSignature }
    let own ← revocationPushV2SignableBytes p
    refuseIf (own != body) "must use RatifyCanonicalJSON") "revocation push signable body"

/-! ## The digest -/

variable (P : Primitives)

/-- The object types whose bodies are hashed. -/
def statementBodyTypes : List Nat := [3, 4, 5, 6, 8]

def parseSignableBody (objectType : Nat) (body : Bytes) : V2Result JNode :=
  if objectType = 3 ∨ objectType = 5 then parseWire body [] []
  else if objectType = 8 then parseWire body ["previous_receipt_hash"] ["bundle_hash"]
  else parseWire body ["previous_statement_hash", "delegation_digest", "previous_receipt_hash"] []

/-- A rotation body has two signatures, both outside its fields. -/
def refuseSignatureMember (objectType : Nat) (root : JNode) : V2Result Unit :=
  if objectType = 4 then .ok ()
  else match signatureMember root with
    | some f => plain s!"signable body must exclude {debugQuote f}"
    | none => .ok ()

def validateSignableBody : Nat → Bytes → V2Result Unit
  | 3, body => validateRevocationListSignableBody body
  | 5, body => validateRevocationPushSignableBody body
  | 4, body => validateRotationSignableBody P body
  | 6, body => validateWitnessSignableBody body
  | _, body => validateReceiptSignableBody body

/-- The bytes a statement body digest covers. -/
def statementBodyText (objectType : Nat) (signableBody : Bytes) : Bytes :=
  utf8 "ratify-protocol-statement-body-v2\x00" ++ u16BeBytes objectType ++ signableBody

/-- SHA-384 over the domain, the object type and a schema-validated body. -/
def statementBodyDigestV2 (objectType : Nat) (signableBody : Bytes) : V2Result Bytes :=
  if objectType ∉ statementBodyTypes then
    err .unsupportedObjectType
      s!"object type 0x{hexEncode (u16BeBytes objectType)} does not use StatementBodyDigestV2"
  else do
    let root ← withContext (parseSignableBody objectType signableBody) "signable body"
    refuseSignatureMember objectType root
    refuseIf (canonicalNode root != signableBody) "signable body must use RatifyCanonicalJSON"
    validateSignableBody P objectType signableBody
    .ok (P.sha384 (statementBodyText objectType signableBody))

/-- `StatementBodyDigestV2(0x0006, signable body)`. -/
def witnessEntryV2Digest (e : WitnessEntryV2) : V2Result Bytes := do
  let body ← witnessEntryV2SignableBytes e
  statementBodyDigestV2 P 6 body

/-- `StatementBodyDigestV2(0x0004, body)`: both signatures are excluded. -/
def keyRotationStatementV2Digest (s : KeyRotationStatementV2) : V2Result Bytes := do
  let body ← keyRotationStatementV2SignableBytes P s
  statementBodyDigestV2 P 4 body

/-! ## What the digest covers -/

/-- The length and the bytes of the domain keep object types apart. -/
theorem statementBodyText_inj {t t' : Nat} (ht : t < 65536) (ht' : t' < 65536) {b b' : Bytes}
    (h : statementBodyText t b = statementBodyText t' b') : t = t' ∧ b = b' := by
  simp only [statementBodyText, List.append_assoc, List.append_cancel_left_eq] at h
  obtain ⟨htype, hbody⟩ := List.append_inj h rfl
  refine ⟨?_, hbody⟩
  simp only [u16BeBytes, List.cons.injEq, and_true, ← UInt8.toNat_inj, UInt8.toNat_ofNat'] at htype
  omega

variable {P}

/-- A successful digest is that of the text it covers. -/
theorem statementBodyDigestV2_eq {objectType : Nat} {body d : Bytes}
    (h : statementBodyDigestV2 P objectType body = .ok d) :
    d = P.sha384 (statementBodyText objectType body) := by
  unfold statementBodyDigestV2 at h
  split at h
  · cases h
  · obtain ⟨root, _, h⟩ := bind_eq_ok_iff.mp h
    obtain ⟨_, _, h⟩ := bind_eq_ok_iff.mp h
    obtain ⟨_, _, h⟩ := bind_eq_ok_iff.mp h
    obtain ⟨_, _, h⟩ := bind_eq_ok_iff.mp h
    exact (Except.ok.inj h).symm

/-- A body that is read, carries no signature and passes its schema is hashed. -/
theorem statementBodyDigestV2_ok {objectType : Nat} {body : Bytes} {root : JNode}
    (htype : objectType ∈ statementBodyTypes) (hparse : parseSignableBody objectType body = .ok root)
    (hunsigned : refuseSignatureMember objectType root = .ok ()) (hcanonical : canonicalNode root = body)
    (hvalid : validateSignableBody P objectType body = .ok ()) :
    statementBodyDigestV2 P objectType body = .ok (P.sha384 (statementBodyText objectType body)) := by
  have hparse' : withContext (parseSignableBody objectType body) "signable body" = .ok root :=
    withContext_eq_ok_iff.mpr hparse
  simp only [statementBodyDigestV2, htype, not_true_eq_false, ↓reduceIte, hparse', ok_bind,
    hunsigned, hcanonical, refuseIf, bne_self_eq_false, Bool.false_eq_true, hvalid]

/-- The receipts' own digest is the receipt case of the general one. -/
theorem receiptBodyDigestV2_eq (body : Bytes) :
    receiptBodyDigestV2 P body = statementBodyDigestV2 P 8 body := by
  have htype : ¬ (8 ∉ statementBodyTypes) := by simp [statementBodyTypes]
  rw [receiptBodyDigestV2, statementBodyDigestV2, if_neg htype]
  refine bind_congr fun root => ?_
  simp only [refuseSignatureMember, Nat.reduceEqDiff, ↓reduceIte]
  cases signatureMember root with
  | some f => rfl
  | none => rfl

/-- A receipt's digest is that of its signable body. -/
theorem verificationReceiptV2Digest_eq_ok_iff {r : VerificationReceiptV2} {d : Bytes} :
    verificationReceiptV2Digest P r = .ok d ↔
      validateReceipt r false = .ok () ∧ ∃ b, verificationReceiptV2SignableBytes r = .ok b
        ∧ statementBodyDigestV2 P 8 b = .ok d := by
  simp only [verificationReceiptV2Digest, bind_eq_ok_iff, receiptBodyDigestV2_eq,
    verificationReceiptV2SignableBytes]
  constructor
  · intro h
    obtain ⟨⟨⟩, hvalid, hb⟩ := h
    exact ⟨hvalid, hb⟩
  · intro h
    exact ⟨(), h⟩

/-- A valid receipt's digest is that of its signable body. -/
theorem verificationReceiptV2Digest_of_signable {r : VerificationReceiptV2} {b : Bytes}
    (hposition : PositionValid r) (hbody : BodyValid r)
    (h : verificationReceiptV2SignableBytes r = .ok b) :
    verificationReceiptV2Digest P r = .ok (P.sha384 (statementBodyText 8 b)) := by
  obtain ⟨d, hd⟩ := exists_verificationReceiptV2Digest P hposition hbody
  obtain ⟨-, b', hb', hdigest⟩ := verificationReceiptV2Digest_eq_ok_iff.mp hd
  obtain rfl := Except.ok.inj (h.symm.trans hb')
  rw [hd, statementBodyDigestV2_eq hdigest]

/-- A witness entry's digest is that of its signable body. -/
theorem witnessEntryV2Digest_of_signable {e : WitnessEntryV2} {b : Bytes}
    (h : witnessEntryV2SignableBytes e = .ok b) :
    witnessEntryV2Digest P e = .ok (P.sha384 (statementBodyText 6 b)) := by
  obtain ⟨hvalid, hb⟩ := witnessEntryV2SignableBytes_eq_ok_iff.mp h
  have hdoc : WireDocument ["previous_statement_hash", "delegation_digest", "previous_receipt_hash"]
      [] (entryMembers e false) := wireDocument_entry hvalid false (by simp [entryMembers, entryBody])
  obtain ⟨n, o, hn, ho, hnode, hview⟩ := hdoc.exists_view hb
  have hparse : parseSignableBody 6 b = .ok n := by
    rw [parseSignableBody, if_neg (by simp), if_neg (by simp)]
    exact hn
  have hmember : refuseSignatureMember 6 n = .ok () := by
    have hnone : signatureMember n = none := signatureMember_eq_none ho fun k hk =>
      hview.get_absent (by
        revert k
        simp [entryMembers, entryBody])
    simp only [refuseSignatureMember, Nat.reduceEqDiff, ↓reduceIte, hnone]
  rw [witnessEntryV2Digest, h, ok_bind]
  exact statementBodyDigestV2_ok (by simp [statementBodyTypes]) hparse hmember hnode
    (validateWitnessSignableBody_ok h)

/-- A rotation statement's digest is that of its signable body. -/
theorem statementBodyDigestV2_of_rotation {s : KeyRotationStatementV2} {b : Bytes}
    (h : keyRotationStatementV2SignableBytes P s = .ok b) :
    statementBodyDigestV2 P 4 b = .ok (P.sha384 (statementBodyText 4 b)) := by
  obtain ⟨hvalid, hb⟩ := keyRotationStatementV2SignableBytes_eq_ok_iff.mp h
  rw [statementCj_unsigned] at hb
  have hdoc : WireDocument ["previous_statement_hash", "delegation_digest", "previous_receipt_hash"]
      [] (statementBody s) := wireDocument_statement hvalid (by simp [statementBody])
  obtain ⟨n, o, hn, ho, hnode, hview⟩ := hdoc.exists_view hb
  have hparse : parseSignableBody 4 b = .ok n := by
    rw [parseSignableBody, if_neg (by simp), if_neg (by simp)]
    exact hn
  exact statementBodyDigestV2_ok (by simp [statementBodyTypes]) hparse rfl hnode
    (validateRotationSignableBody_ok h)

theorem keyRotationStatementV2Digest_of_signable {s : KeyRotationStatementV2} {b : Bytes}
    (h : keyRotationStatementV2SignableBytes P s = .ok b) :
    keyRotationStatementV2Digest P s = .ok (P.sha384 (statementBodyText 4 b)) := by
  rw [keyRotationStatementV2Digest, h, ok_bind, statementBodyDigestV2_of_rotation h]

end RatifyProtocol.V2
