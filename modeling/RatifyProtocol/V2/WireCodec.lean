import RatifyProtocol.V2.Wire
set_option autoImplicit false

/-!
# V2: encoding and decoding revocation objects are inverse

A status object that validates and whose canonical bytes stay under the wire
limit encodes, and decoding its encoding returns the object itself.  The
encoding, the signed body of a push and the hashed revoked set each determine
what they were written from.
-/

namespace RatifyProtocol.V2

open Foundation

/-! ## Well-formed objects -/

/-- The certificate IDs a status object names, in its order. -/
def revokedIds (refs : List RevokedCertV2) : List String := refs.map (·.certId)

/-- References that pass `validate_revoked`. -/
structure RefsWellFormed (refs : List RevokedCertV2) : Prop where
  nodup : (revokedIds refs).Nodup
  nonempty : ∀ id ∈ revokedIds refs, id ≠ ""
  bounded : ∀ id ∈ revokedIds refs, (utf8 id).length ≤ maxIdentifierLengthBytes

theorem validateRevokedFrom_eq_ok_iff {seen : List String} {refs : List RevokedCertV2} :
    validateRevokedFrom seen refs = .ok () ↔
      RefsWellFormed refs ∧ ∀ id ∈ revokedIds refs, id ∉ seen := by
  induction refs generalizing seen with
  | nil => simp [validateRevokedFrom, revokedIds, RefsWellFormed.mk]
  | cons r refs ih =>
    simp only [validateRevokedFrom, refuseIf_bind_eq_ok_iff, ih, Bool.or_eq_false_iff,
      beq_eq_false_iff_ne, ne_eq, List.contains_eq_mem, decide_eq_false_iff_not, not_lt]
    constructor
    · rintro ⟨⟨hne, hseen⟩, hlen, hwf, hout⟩
      refine ⟨⟨?_, ?_, ?_⟩, ?_⟩
      · exact List.nodup_cons.mpr ⟨fun hmem => hout _ hmem (by simp), hwf.nodup⟩
      · simpa [revokedIds, hne] using hwf.nonempty
      · simpa [revokedIds, hlen] using hwf.bounded
      · intro id hid
        rcases List.mem_cons.mp hid with rfl | hid
        · exact hseen
        · exact fun hmem => hout id hid (by simp [hmem])
    · rintro ⟨hwf, hout⟩
      have hnodup := List.nodup_cons.mp hwf.nodup
      refine ⟨⟨hwf.nonempty _ (by simp [revokedIds]), hout _ (by simp [revokedIds])⟩,
        hwf.bounded _ (by simp [revokedIds]), ⟨hnodup.2, ?_, ?_⟩, ?_⟩
      · exact fun id hid => hwf.nonempty id (List.mem_cons_of_mem _ hid)
      · exact fun id hid => hwf.bounded id (List.mem_cons_of_mem _ hid)
      · intro id hid hmem
        rcases List.mem_cons.mp hmem with rfl | hmem
        · exact hnodup.1 hid
        · exact hout id (List.mem_cons_of_mem _ hid) hmem

theorem validateRevoked_eq_ok_iff {refs : List RevokedCertV2} :
    validateRevoked refs = .ok () ↔ RefsWellFormed refs := by
  simp [validateRevoked, validateRevokedFrom_eq_ok_iff]

/-- A list that passes `validate_revocation_list_v2`. -/
structure ListWellFormed (l : RevocationListV2) : Prop where
  version : l.version = 2
  issuer : validV2Id l.issuerId = true
  sequence_pos : 0 < l.sequence
  sequence_le : l.sequence ≤ maxSafe
  updatedAt : 0 ≤ l.updatedAt ∧ l.updatedAt ≤ v2MaxTimestampSeconds
  nextUpdate : 0 ≤ l.nextUpdate ∧ l.nextUpdate ≤ v2MaxTimestampSeconds
  ordered : l.updatedAt < l.nextUpdate
  count : l.revoked.length ≤ maxRevocationListRefsV2
  refs : RefsWellFormed l.revoked

theorem validateRevocationListV2_eq_ok_iff {l : RevocationListV2} :
    validateRevocationListV2 l = .ok () ↔ ListWellFormed l := by
  simp only [validateRevocationListV2, refuseIf_bind_eq_ok_iff, validateRevoked_eq_ok_iff,
    Bool.or_eq_false_iff, bne_eq_false_iff_eq, Bool.not_eq_false', validV2Timestamp_iff,
    decide_eq_false_iff_not, not_le, not_lt]
  constructor
  · rintro ⟨⟨⟨⟨⟨⟨⟨h₁, h₂⟩, h₃⟩, h₄⟩, h₅⟩, h₆⟩, h₇⟩, h₈, h₉⟩
    exact ⟨h₁, h₂, h₃, h₄, h₅, h₆, h₇, h₈, h₉⟩
  · rintro ⟨h₁, h₂, h₃, h₄, h₅, h₆, h₇, h₈, h₉⟩
    exact ⟨⟨⟨⟨⟨⟨⟨h₁, h₂⟩, h₃⟩, h₄⟩, h₅⟩, h₆⟩, h₇⟩, h₈, h₉⟩

/-- A push that passes `validate_revocation_push_v2`. -/
structure PushWellFormed (p : RevocationPushV2) : Prop where
  version : p.version = 2
  issuer : validV2Id p.issuerId = true
  sequence_pos : 0 < p.sequence
  sequence_le : p.sequence ≤ maxSafe
  pushedAt : 0 ≤ p.pushedAt ∧ p.pushedAt ≤ v2MaxTimestampSeconds
  count : p.revoked.length ≤ maxRevocationPushRefsV2
  refs : RefsWellFormed p.revoked

theorem validateRevocationPushV2_eq_ok_iff {p : RevocationPushV2} :
    validateRevocationPushV2 p = .ok () ↔ PushWellFormed p := by
  simp only [validateRevocationPushV2, refuseIf_bind_eq_ok_iff, validateRevoked_eq_ok_iff,
    Bool.or_eq_false_iff, bne_eq_false_iff_eq, Bool.not_eq_false', validV2Timestamp_iff,
    decide_eq_false_iff_not, not_le, not_lt]
  constructor
  · rintro ⟨⟨⟨⟨⟨h₁, h₂⟩, h₃⟩, h₄⟩, h₅⟩, h₆, h₇⟩
    exact ⟨h₁, h₂, h₃, h₄, h₅, h₆, h₇⟩
  · rintro ⟨h₁, h₂, h₃, h₄, h₅, h₆, h₇⟩
    exact ⟨⟨⟨⟨⟨h₁, h₂⟩, h₃⟩, h₄⟩, h₅⟩, h₆, h₇⟩

/-- The two component lengths every signature carries. -/
def SignatureLengths (sig : HybridSignature) : Prop :=
  sig.ed25519.length = 64 ∧ sig.mlDsa65.length = 3309

theorem validateSignatureLengths_eq_ok_iff {sig : HybridSignature} :
    validateSignatureLengths sig = .ok () ↔ SignatureLengths sig := by
  simp only [validateSignatureLengths, refuseIf_eq_ok_iff, decide_eq_false_iff_not, not_or,
    not_not, SignatureLengths]

/-! ## Canonical bodies are wire values -/

theorem wireValue_revokedCj (levels : Nat) (refs : List RevokedCertV2) :
    WireValue (levels + 2) (revokedCj refs) := by
  refine .arr _ _ fun x hx => ?_
  obtain ⟨r, -, rfl⟩ := List.mem_map.mp hx
  refine .obj _ _ (by simp) ?_ ?_
  · intro f hf hbyte
    obtain rfl := List.mem_singleton.mp hf
    simp [wireByteFields] at hbyte
  · intro f hf
    obtain rfl := List.mem_singleton.mp hf
    exact .str _ _

theorem wireValue_sig (levels : Nat) (s : HybridSignature) :
    WireValue (levels + 1) (CJ.sig s) := by
  refine .obj _ _ (by simp) ?_ ?_
  · intro f hf _
    rcases List.mem_pair.mp hf with rfl | rfl
    · exact ⟨_, rfl⟩
    · exact ⟨_, rfl⟩
  · intro f hf
    rcases List.mem_pair.mp hf with rfl | rfl
    · exact .bytes _ _
    · exact .bytes _ _

theorem wireValue_key (levels : Nat) (k : HybridPublicKey) : WireValue (levels + 1) (CJ.key k) :=
  wireValue_sig levels { ed25519 := k.ed25519, mlDsa65 := k.mlDsa65 }

theorem safe_timestamp {t : Int} (h : 0 ≤ t ∧ t ≤ v2MaxTimestampSeconds) :
    -maxSafe ≤ t ∧ t ≤ maxSafe := by
  simp only [v2MaxTimestampSeconds, maxSafe] at *
  omega

theorem safe_sequence {n : Int} (h₁ : 0 < n) (h₂ : n ≤ maxSafe) :
    -maxSafe ≤ n ∧ n ≤ maxSafe := by
  simp only [maxSafe] at *
  omega

theorem safe_version {n : Int} (h : n = 2) : -maxSafe ≤ n ∧ n ≤ maxSafe := by
  simp only [maxSafe]
  omega

/-- The members of a list, signed or not, form a wire value. -/
theorem wireValue_listCj {l : RevocationListV2} (h : ListWellFormed l) (signed : Bool) :
    WireValue maxJsonNestingDepth (listCj l signed) := by
  refine .obj 15 _ ?_ ?_ ?_
  · cases signed <;> simp [listBody]
  · intro f hf hbyte
    exfalso
    revert hbyte
    cases signed <;>
      simp only [listBody, ↓reduceIte, Bool.false_eq_true, List.cons_append, List.nil_append,
        List.mem_cons, List.not_mem_nil, or_false] at hf <;>
      rcases hf with rfl | rfl | rfl | rfl | rfl | rfl | rfl <;> simp [wireByteFields]
  · intro f hf
    have hbody : ∀ g ∈ listBody l, WireValue 15 g.2 := by
      simp only [listBody, List.forall_mem_cons]
      exact ⟨.str _ _, .int _ _ (safe_timestamp h.nextUpdate), wireValue_revokedCj 13 _,
        .int _ _ (safe_sequence h.sequence_pos h.sequence_le),
        .int _ _ (safe_timestamp h.updatedAt), .int _ _ (safe_version h.version), by simp⟩
    rcases List.mem_append.mp hf with hf | hf
    · exact hbody f hf
    · cases signed with
      | false => simp at hf
      | true =>
        obtain rfl := List.mem_singleton.mp hf
        exact wireValue_sig 14 _

theorem fits_revokedCj (refs : List RevokedCertV2) : Fits 2 (revokedCj refs) := by
  refine .arr 1 _ fun x hx => ?_
  obtain ⟨r, -, rfl⟩ := List.mem_map.mp hx
  refine .obj 0 _ (by simp) fun f hf => ?_
  obtain rfl := List.mem_singleton.mp hf
  exact .str 0 _

theorem fits_sig (s : HybridSignature) : Fits 1 (CJ.sig s) := by
  refine .obj 0 _ (by simp) fun f hf => ?_
  rcases List.mem_pair.mp hf with rfl | rfl
  · exact .bytes 0 _
  · exact .bytes 0 _

theorem fits_listCj (l : RevocationListV2) : Fits 3 (listCj l true) := by
  refine .obj 2 _ (by simp [listBody]) ?_
  simp only [listBody, ↓reduceIte, List.cons_append, List.nil_append, List.forall_mem_cons]
  exact ⟨.str _ _, .int _ _, fits_revokedCj _, .int _ _, .int _ _, .int _ _, (fits_sig _).succ,
    by simp⟩

/-- The members of a push, signed or not, form a wire value. -/
theorem wireValue_pushCj {p : RevocationPushV2} (h : PushWellFormed p) (signed : Bool) :
    WireValue maxJsonNestingDepth (pushCj p signed) := by
  refine .obj 15 _ ?_ ?_ ?_
  · cases signed <;> simp [pushBody]
  · intro f hf hbyte
    exfalso
    revert hbyte
    cases signed <;>
      simp only [pushBody, ↓reduceIte, Bool.false_eq_true, List.cons_append, List.nil_append,
        List.mem_cons, List.not_mem_nil, or_false] at hf <;>
      rcases hf with rfl | rfl | rfl | rfl | rfl | rfl <;> simp [wireByteFields]
  · intro f hf
    have hbody : ∀ g ∈ pushBody p, WireValue 15 g.2 := by
      simp only [pushBody, List.forall_mem_cons]
      exact ⟨.str _ _, .int _ _ (safe_timestamp h.pushedAt), wireValue_revokedCj 13 _,
        .int _ _ (safe_sequence h.sequence_pos h.sequence_le),
        .int _ _ (safe_version h.version), by simp⟩
    rcases List.mem_append.mp hf with hf | hf
    · exact hbody f hf
    · cases signed with
      | false => simp at hf
      | true =>
        obtain rfl := List.mem_singleton.mp hf
        exact wireValue_sig 14 _

/-! ## Reading the members back -/

theorem revokedRef_of_denotes {r : RevokedCertV2} {n : JNode}
    (h : Denotes (.obj [("cert_id", .str r.certId)]) n) : revokedRef n = .ok r := by
  have hnull := isNull_of_denotes h (by simp)
  obtain ⟨o, ho, hview⟩ := objView_of_denotes h (by simp)
  have honly := hview.only_ok ["cert_id"] (by simp)
  have hstr : Obj.str o "cert_id" = .ok r.certId := hview.str_ok (by simp)
  simp only [revokedRef, hnull, Bool.false_eq_true, ↓reduceIte, ho, ok_bind, honly, hstr]

theorem revokedFrom_of_view {fields : List (String × CJ)} {o : Obj} (h : ObjView fields o)
    {refs : List RevokedCertV2} (hmem : ("revoked", revokedCj refs) ∈ fields) :
    revokedFrom o = .ok refs := by
  obtain ⟨ns, hns, hden⟩ := h.array_ok hmem
  have hread : ns.mapM revokedRef = .ok (refs.map id) :=
    mapM_reads (fun _ _ _ hd => revokedRef_of_denotes hd) hden
  rw [revokedFrom, hns, ok_bind, hread, List.map_id]

theorem decodeRevocationListV2_canonical {l : RevocationListV2} {b : Bytes}
    (hwf : ListWellFormed l) (hsig : SignatureLengths l.signature)
    (hb : canonical (listCj l true) = .ok b) (hlen : b.length ≤ maxRevocationListBytesV2) :
    decodeRevocationListV2 b = .ok l := by
  obtain ⟨n, hn, hd⟩ := parseWire_canonical (wireValue_listCj hwf true) hb
  obtain ⟨o, ho, hview⟩ := objView_of_denotes hd (by simp [listBody])
  have hsize : checkV2WireSize b "revocation list" "MAX_REVOCATION_LIST_BYTES_V2"
      maxRevocationListBytesV2 = .ok () := by
    simp [checkV2WireSize, hlen]
  have hreq : o.require listFields [] = .ok () :=
    hview.require_ok listFields (by simp [listFields, listBody])
      (by simp [listBody, revokedCj, CJ.sig])
  have honly : o.only listFields = .ok () :=
    hview.only_ok listFields (by simp [listFields, listBody])
  have hversion : o.i64 "version" = .ok l.version :=
    hview.i64_ok (by simp [listBody]) (safe_version hwf.version)
  have hissuer : o.str "issuer_id" = .ok l.issuerId := hview.str_ok (by simp [listBody])
  have hupdated : o.i64 "updated_at" = .ok l.updatedAt :=
    hview.i64_ok (by simp [listBody]) (safe_timestamp hwf.updatedAt)
  have hnext : o.i64 "next_update" = .ok l.nextUpdate :=
    hview.i64_ok (by simp [listBody]) (safe_timestamp hwf.nextUpdate)
  have hseq : o.i64 "sequence" = .ok l.sequence :=
    hview.i64_ok (by simp [listBody]) (safe_sequence hwf.sequence_pos hwf.sequence_le)
  have hrevoked : revokedFrom o = .ok l.revoked :=
    revokedFrom_of_view hview (by simp [listBody])
  have hsign : o.sig "signature" = .ok l.signature := hview.sig_ok (by simp)
  simp only [decodeRevocationListV2, classify_eq_ok_iff, hsize, hn, ho, hreq, honly, hversion,
    hissuer, hupdated, hnext, hseq, hrevoked, hsign, ok_bind,
    validateRevocationListV2_eq_ok_iff.mpr hwf, validateSignatureLengths_eq_ok_iff.mpr hsig]

/-- Any text whose node denotes a push decodes to it. -/
theorem decodeRevocationPushV2_of_denotes {p : RevocationPushV2} {b : Bytes} {n : JNode}
    (hwf : PushWellFormed p) (hsig : SignatureLengths p.signature)
    (hn : parseWire b [] [] = .ok n) (hd : Denotes (pushCj p true) n)
    (hlen : b.length ≤ maxRevocationPushBytesV2) : decodeRevocationPushV2 b = .ok p := by
  obtain ⟨o, ho, hview⟩ := objView_of_denotes hd (by simp [pushBody])
  have hsize : checkV2WireSize b "revocation push" "MAX_REVOCATION_PUSH_BYTES_V2"
      maxRevocationPushBytesV2 = .ok () := by
    simp [checkV2WireSize, hlen]
  have hreq : o.require pushFields [] = .ok () :=
    hview.require_ok pushFields (by simp [pushFields, pushBody])
      (by simp [pushBody, revokedCj, CJ.sig])
  have honly : o.only pushFields = .ok () :=
    hview.only_ok pushFields (by simp [pushFields, pushBody])
  have hversion : o.i64 "version" = .ok p.version :=
    hview.i64_ok (by simp [pushBody]) (safe_version hwf.version)
  have hissuer : o.str "issuer_id" = .ok p.issuerId := hview.str_ok (by simp [pushBody])
  have hpushed : o.i64 "pushed_at" = .ok p.pushedAt :=
    hview.i64_ok (by simp [pushBody]) (safe_timestamp hwf.pushedAt)
  have hseq : o.i64 "sequence" = .ok p.sequence :=
    hview.i64_ok (by simp [pushBody]) (safe_sequence hwf.sequence_pos hwf.sequence_le)
  have hrevoked : revokedFrom o = .ok p.revoked :=
    revokedFrom_of_view hview (by simp [pushBody])
  have hsign : o.sig "signature" = .ok p.signature := hview.sig_ok (by simp)
  simp only [decodeRevocationPushV2, classify_eq_ok_iff, hsize, hn, ho, hreq, honly, hversion,
    hissuer, hpushed, hseq, hrevoked, hsign, ok_bind,
    validateRevocationPushV2_eq_ok_iff.mpr hwf, validateSignatureLengths_eq_ok_iff.mpr hsig]

theorem decodeRevocationPushV2_canonical {p : RevocationPushV2} {b : Bytes}
    (hwf : PushWellFormed p) (hsig : SignatureLengths p.signature)
    (hb : canonical (pushCj p true) = .ok b) (hlen : b.length ≤ maxRevocationPushBytesV2) :
    decodeRevocationPushV2 b = .ok p := by
  obtain ⟨n, hn, hd⟩ := parseWire_canonical (wireValue_pushCj hwf true) hb
  exact decodeRevocationPushV2_of_denotes hwf hsig hn hd hlen

/-! ## Encoding -/

theorem decode_size_list {b : Bytes} {l : RevocationListV2}
    (h : decodeRevocationListV2 b = .ok l) : b.length ≤ maxRevocationListBytesV2 := by
  simp only [decodeRevocationListV2, classify_eq_ok_iff, checkV2WireSize,
    refuseIf_bind_eq_ok_iff] at h
  simpa using h.1

theorem decode_size_push {b : Bytes} {p : RevocationPushV2}
    (h : decodeRevocationPushV2 b = .ok p) : b.length ≤ maxRevocationPushBytesV2 := by
  simp only [decodeRevocationPushV2, classify_eq_ok_iff, checkV2WireSize,
    refuseIf_bind_eq_ok_iff] at h
  simpa using h.1

/-- A decoded list is well formed. -/
theorem decodeRevocationListV2_sound {b : Bytes} {l : RevocationListV2}
    (h : decodeRevocationListV2 b = .ok l) : ListWellFormed l ∧ SignatureLengths l.signature := by
  simp only [decodeRevocationListV2, classify_eq_ok_iff, bind_eq_ok_iff, Except.ok.injEq] at h
  obtain ⟨_, -, _, -, _, -, _, -, _, -, _, -, _, -, _, -, _, -, _, -, _, -, _, -, _, hwf, _, hsig,
    rfl⟩ := h
  exact ⟨validateRevocationListV2_eq_ok_iff.mp hwf, validateSignatureLengths_eq_ok_iff.mp hsig⟩

/-- A decoded push is well formed. -/
theorem decodeRevocationPushV2_sound {b : Bytes} {p : RevocationPushV2}
    (h : decodeRevocationPushV2 b = .ok p) : PushWellFormed p ∧ SignatureLengths p.signature := by
  simp only [decodeRevocationPushV2, classify_eq_ok_iff, bind_eq_ok_iff, Except.ok.injEq] at h
  obtain ⟨_, -, _, -, _, -, _, -, _, -, _, -, _, -, _, -, _, -, _, -, _, -, _, hwf, _, hsig,
    rfl⟩ := h
  exact ⟨validateRevocationPushV2_eq_ok_iff.mp hwf, validateSignatureLengths_eq_ok_iff.mp hsig⟩

/-- Exactly the well-formed lists under the size limit encode. -/
theorem encodeRevocationListV2_eq_ok_iff {l : RevocationListV2} {b : Bytes} :
    encodeRevocationListV2 l = .ok b ↔
      ListWellFormed l ∧ SignatureLengths l.signature ∧ canonical (listCj l true) = .ok b ∧
        b.length ≤ maxRevocationListBytesV2 := by
  simp only [encodeRevocationListV2, bind_eq_ok_iff, Except.ok.injEq]
  constructor
  · rintro ⟨_, hwf, _, hsig, b', hb, l', hdec, rfl⟩
    exact ⟨validateRevocationListV2_eq_ok_iff.mp hwf,
      validateSignatureLengths_eq_ok_iff.mp hsig, hb, decode_size_list hdec⟩
  · rintro ⟨hwf, hsig, hb, hlen⟩
    exact ⟨(), validateRevocationListV2_eq_ok_iff.mpr hwf, (),
      validateSignatureLengths_eq_ok_iff.mpr hsig, b, hb, l,
      decodeRevocationListV2_canonical hwf hsig hb hlen, rfl⟩

/-- Exactly the well-formed pushes under the size limit encode. -/
theorem encodeRevocationPushV2_eq_ok_iff {p : RevocationPushV2} {b : Bytes} :
    encodeRevocationPushV2 p = .ok b ↔
      PushWellFormed p ∧ SignatureLengths p.signature ∧ canonical (pushCj p true) = .ok b ∧
        b.length ≤ maxRevocationPushBytesV2 := by
  simp only [encodeRevocationPushV2, bind_eq_ok_iff, Except.ok.injEq]
  constructor
  · rintro ⟨_, hwf, _, hsig, b', hb, l', hdec, rfl⟩
    exact ⟨validateRevocationPushV2_eq_ok_iff.mp hwf,
      validateSignatureLengths_eq_ok_iff.mp hsig, hb, decode_size_push hdec⟩
  · rintro ⟨hwf, hsig, hb, hlen⟩
    exact ⟨(), validateRevocationPushV2_eq_ok_iff.mpr hwf, (),
      validateSignatureLengths_eq_ok_iff.mpr hsig, b, hb, p,
      decodeRevocationPushV2_canonical hwf hsig hb hlen, rfl⟩

/-- Decoding an encoded list returns the list. -/
theorem decode_encode_list {l : RevocationListV2} {b : Bytes}
    (h : encodeRevocationListV2 l = .ok b) : decodeRevocationListV2 b = .ok l := by
  obtain ⟨hwf, hsig, hb, hlen⟩ := encodeRevocationListV2_eq_ok_iff.mp h
  exact decodeRevocationListV2_canonical hwf hsig hb hlen

/-- Decoding an encoded push returns the push. -/
theorem decode_encode_push {p : RevocationPushV2} {b : Bytes}
    (h : encodeRevocationPushV2 p = .ok b) : decodeRevocationPushV2 b = .ok p := by
  obtain ⟨hwf, hsig, hb, hlen⟩ := encodeRevocationPushV2_eq_ok_iff.mp h
  exact decodeRevocationPushV2_canonical hwf hsig hb hlen

theorem encodeRevocationListV2_injective {l m : RevocationListV2} {b : Bytes}
    (hl : encodeRevocationListV2 l = .ok b) (hm : encodeRevocationListV2 m = .ok b) : l = m := by
  have h := (decode_encode_list hl).symm.trans (decode_encode_list hm)
  exact Except.ok.inj h

theorem encodeRevocationPushV2_injective {p q : RevocationPushV2} {b : Bytes}
    (hp : encodeRevocationPushV2 p = .ok b) (hq : encodeRevocationPushV2 q = .ok b) : p = q := by
  have h := (decode_encode_push hp).symm.trans (decode_encode_push hq)
  exact Except.ok.inj h

/-! ## Bodies determine what they were written from -/

/-- The signed body of a push fixes its sequence and its references. -/
theorem pushSignable_injective {p q : RevocationPushV2} {b : Bytes}
    (hp : revocationPushV2SignableBytes p = .ok b)
    (hq : revocationPushV2SignableBytes q = .ok b) :
    p.sequence = q.sequence ∧ p.revoked = q.revoked := by
  simp only [revocationPushV2SignableBytes, bind_eq_ok_iff] at hp hq
  obtain ⟨_, hwfp, hp⟩ := hp
  obtain ⟨_, hwfq, hq⟩ := hq
  have hwfp := validateRevocationPushV2_eq_ok_iff.mp hwfp
  have hwfq := validateRevocationPushV2_eq_ok_iff.mp hwfq
  obtain ⟨n, hn, hd⟩ := parseWire_canonical (wireValue_pushCj hwfp false) hp
  obtain ⟨n', hn', hd'⟩ := parseWire_canonical (wireValue_pushCj hwfq false) hq
  obtain rfl : n = n' := Except.ok.inj (hn.symm.trans hn')
  obtain ⟨o, ho, hview⟩ := objView_of_denotes hd (by simp [pushBody])
  obtain ⟨o', ho', hview'⟩ := objView_of_denotes hd' (by simp [pushBody])
  obtain rfl : o = o' := Except.ok.inj (ho.symm.trans ho')
  have hseq : o.i64 "sequence" = .ok p.sequence :=
    hview.i64_ok (by simp [pushBody]) (safe_sequence hwfp.sequence_pos hwfp.sequence_le)
  have hseq' : o.i64 "sequence" = .ok q.sequence :=
    hview'.i64_ok (by simp [pushBody]) (safe_sequence hwfq.sequence_pos hwfq.sequence_le)
  have hrev : revokedFrom o = .ok p.revoked := revokedFrom_of_view hview (by simp [pushBody])
  have hrev' : revokedFrom o = .ok q.revoked := revokedFrom_of_view hview' (by simp [pushBody])
  exact ⟨Except.ok.inj (hseq.symm.trans hseq'), Except.ok.inj (hrev.symm.trans hrev')⟩

theorem wireValue_strs (levels : Nat) (values : List String) :
    WireValue (levels + 1) (CJ.strs values) := by
  refine .arr _ _ fun x hx => ?_
  obtain ⟨s, -, rfl⟩ := List.mem_map.mp hx
  exact .str _ _

/-- The canonical text of a list of strings determines the list. -/
theorem canonical_strs_injective {xs ys : List String} {b : Bytes}
    (hx : canonical (CJ.strs xs) = .ok b) (hy : canonical (CJ.strs ys) = .ok b) : xs = ys := by
  obtain ⟨n, hn, hd⟩ := parseWire_canonical (wireValue_strs 15 xs) hx
  obtain ⟨n', hn', hd'⟩ := parseWire_canonical (wireValue_strs 15 ys) hy
  obtain rfl : n = n' := Except.ok.inj (hn.symm.trans hn')
  cases hd with
  | arr _ ns i j hns =>
    cases hd' with
    | arr _ _ _ _ hns' =>
      clear hx hy hn hn'
      induction xs generalizing ys ns with
      | nil =>
        cases hns
        cases ys with
        | nil => rfl
        | cons y ys => cases hns'
      | cons x xs ih =>
        cases hns with
        | cons h₁ hrest =>
          cases ys with
          | nil => cases hns'
          | cons y ys =>
            cases hns' with
            | cons h₂ hrest' =>
              cases h₁
              cases h₂
              rw [ih _ hrest hrest']

end RatifyProtocol.V2
