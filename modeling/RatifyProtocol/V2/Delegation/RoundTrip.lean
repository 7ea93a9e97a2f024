import RatifyProtocol.Foundation.Format
import RatifyProtocol.V2.Delegation.BundleCodec
import RatifyProtocol.V2.WireCodec
import RatifyProtocol.V2.WireSize
set_option autoImplicit false

/-!
# V2: the round trip of the wire formats

Certificates, proof bundles, revocation lists and pushes of `v2/wire.rs` as bounded
formats.  Their decoders take any member order, white space and escapes; what they
accept encodes again exactly when its canonical text is within the size limit.
-/

namespace RatifyProtocol.V2

open Foundation

variable (P : Primitives)

/-! ## The formats -/

def certFormat : Format V2Error UInt8 DelegationCertV2 where
  decode := decodeDelegationCertV2 P
  encode := encodeDelegationCertV2 P
  text := fun c => canonical (.obj (certMembers c true))
  limit := maxDelegationCertBytesV2

def bundleFormat : Format V2Error UInt8 ProofBundleV2 where
  decode := decodeProofBundleV2 P
  encode := encodeProofBundleV2 P
  text := fun b => canonical (.obj (bundleMembers b))
  limit := maxProofBundleBytesV2

def listFormat : Format V2Error UInt8 RevocationListV2 where
  decode := decodeRevocationListV2
  encode := encodeRevocationListV2
  text := fun l => canonical (listCj l true)
  limit := maxRevocationListBytesV2

def pushFormat : Format V2Error UInt8 RevocationPushV2 where
  decode := decodeRevocationPushV2
  encode := encodeRevocationPushV2
  text := fun p => canonical (pushCj p true)
  limit := maxRevocationPushBytesV2

variable {P}

/-! ## Certificates -/

theorem encodeDelegationCertV2_decoded {t : Bytes} {c : DelegationCertV2}
    (h : decodeDelegationCertV2 P t = .ok c) (e : Bytes) :
    encodeDelegationCertV2 P c = .ok e ↔
      canonical (.obj (certMembers c true)) = .ok e ∧ e.length ≤ maxDelegationCertBytesV2 := by
  obtain ⟨-, hc, hsig, hnormal⟩ := decodeDelegationCertV2_sound h
  have hvalid := validateDelegationCertV2_eq_ok_iff.mpr hc
  have hlengths := validateSignatureLengths_eq_ok_iff.mpr hsig
  have hcj : certCj c true = .ok (.obj (certMembers c true)) :=
    certCj_eq_ok_iff.mpr ⟨rfl, hc.constraints⟩
  simp only [encodeDelegationCertV2, hvalid, hlengths, hcj, ok_bind, bind_eq_ok_iff,
    withContext_eq_ok_iff, Except.ok.injEq]
  constructor
  · rintro ⟨e', htext, c', hread, rfl⟩
    exact ⟨htext, (decodeDelegationCertV2_sound hread).1⟩
  · rintro ⟨htext, hlen⟩
    exact ⟨e, htext, c, decodeDelegationCertV2_canonical hc hsig hnormal htext hlen, rfl⟩

theorem certFormat_canonical : (certFormat P).Canonical where
  bounded := fun _ _ h => (decodeDelegationCertV2_sound h).1
  written := by
    intro t c h
    obtain ⟨-, hc, -, hnormal⟩ := decodeDelegationCertV2_sound h
    exact (wireBody_cert hc hnormal.nests true).exists_canonical
  encodes := fun _ _ h e => encodeDelegationCertV2_decoded h e
  reads := by
    intro t c h e htext hlen
    obtain ⟨-, hc, hsig, hnormal⟩ := decodeDelegationCertV2_sound h
    exact decodeDelegationCertV2_canonical hc hsig hnormal htext hlen

/-! ## Proof bundles -/

/-- A decoded bundle reads back from its canonical text. -/
theorem decodeProofBundleV2_text {t : Bytes} {b : ProofBundleV2}
    (h : decodeProofBundleV2 P t = .ok b) {e : Bytes}
    (he : canonical (.obj (bundleMembers b)) = .ok e) (hlen : e.length ≤ maxProofBundleBytesV2) :
    decodeProofBundleV2 P e = .ok b := by
  obtain ⟨-, hvalid, hnormal⟩ := decodeProofBundleV2_sound h
  have hread := decodeProofBundleV2_canonical hvalid hnormal.streamSeq
    (fun c hc => (hnormal.certs c hc).nests) (by rw [hnormal.normal_eq]; exact hvalid) he hlen
  rw [hread, hnormal.normal_eq]

theorem encodeProofBundleV2_decoded {t : Bytes} {b : ProofBundleV2}
    (h : decodeProofBundleV2 P t = .ok b) (e : Bytes) :
    encodeProofBundleV2 P b = .ok e ↔
      canonical (.obj (bundleMembers b)) = .ok e ∧ e.length ≤ maxProofBundleBytesV2 := by
  obtain ⟨-, hvalid, -⟩ := decodeProofBundleV2_sound h
  have hcj : bundleCj b = .ok (.obj (bundleMembers b)) :=
    bundleCj_eq_ok_iff.mpr ⟨rfl, fun c hc => (hvalid.certs c hc).1.constraints⟩
  simp only [encodeProofBundleV2, hcj, ok_bind, bind_eq_ok_iff, withContext_eq_ok_iff,
    Except.ok.injEq]
  constructor
  · rintro ⟨e', htext, b', hread, rfl⟩
    exact ⟨htext, (decodeProofBundleV2_sound hread).1⟩
  · rintro ⟨htext, hlen⟩
    exact ⟨e, htext, b, decodeProofBundleV2_text h htext hlen, rfl⟩

/-- A valid bundle whose text is short has a wire form, and so a hash. -/
theorem exists_bundleWire {b : ProofBundleV2} (hvalid : BundleValid P b)
    (hseq : ∀ s, b.streamSeq = some s → s ≤ maxSafe)
    (hnests : ∀ c ∈ b.delegations, ∀ k ∈ c.constraints, k.Nests 11) (hnormal : b.normal = b)
    (hsize : 4 * textLength (.obj (bundleMembers b)) ≤ maxProofBundleBytesV2) :
    ∃ wire, canonical (.obj (bundleMembers b)) = .ok wire ∧ decodeProofBundleV2 P wire = .ok b
      ∧ encodeProofBundleV2 P b = .ok wire := by
  obtain ⟨wire, hwire⟩ := (wireBody_bundle hvalid hseq hnests).exists_canonical
  have hlen : wire.length ≤ maxProofBundleBytesV2 := (length_canonical hwire).2.trans hsize
  have hdecoded : decodeProofBundleV2 P wire = .ok b := by
    rw [decodeProofBundleV2_canonical hvalid hseq hnests (hnormal.symm ▸ hvalid) hwire hlen, hnormal]
  exact ⟨wire, hwire, hdecoded, (encodeProofBundleV2_decoded hdecoded wire).mpr ⟨hwire, hlen⟩⟩

theorem bundleHashV2_of_encode {b : ProofBundleV2} {wire : Bytes}
    (h : encodeProofBundleV2 P b = .ok wire) :
    bundleHashV2 P b = .ok (bundleHashOfBytes P wire) := by
  rw [bundleHashV2, h, ok_bind]

theorem bundleFormat_canonical : (bundleFormat P).Canonical where
  bounded := fun _ _ h => (decodeProofBundleV2_sound h).1
  written := by
    intro t b h
    obtain ⟨-, hvalid, hnormal⟩ := decodeProofBundleV2_sound h
    exact (wireBody_bundle hvalid hnormal.streamSeq
      fun c hc => (hnormal.certs c hc).nests).exists_canonical
  encodes := fun _ _ h e => encodeProofBundleV2_decoded h e
  reads := fun _ _ h _ htext hlen => decodeProofBundleV2_text h htext hlen

/-! ## Short bundles -/

/-- A key of the registered lengths. -/
def KeyLengths (key : HybridPublicKey) : Prop :=
  key.ed25519.length = 32 ∧ key.mlDsa65.length = 1952

theorem keyLengths_of_keyIdV2 {key : HybridPublicKey} {id : String}
    (h : keyIdV2 P key = .ok id) : KeyLengths key := by
  unfold keyIdV2 at h
  split at h
  · cases h
  split at h
  · cases h
  · rename_i hed hml
    exact ⟨not_not.mp hed, not_not.mp hml⟩

theorem textLength_key {key : HybridPublicKey} (h : KeyLengths key) :
    textLength (CJ.key key) = 2677 := by
  have h₁ : (encodeString "ed25519".toList).length = 9 := rfl
  have h₂ : (encodeString "ml_dsa_65".toList).length = 11 := rfl
  simp only [CJ.key, textLength, membersLength, h₁, h₂, h.1, h.2, List.length_cons,
    List.length_nil]

/-- Constraints in normal form whose text is short. -/
structure ShortConstraints (cs : List ConstraintV2) : Prop where
  normal : cs.map ConstraintV2.schema = cs
  nests : ∀ k ∈ cs, k.Nests 11
  length : itemsLength (cs.map fun k => .obj (constraintBody k)) ≤ 600

theorem shortConstraints_nil : ShortConstraints [] where
  normal := rfl
  nests := fun _ h => absurd h List.not_mem_nil
  length := Nat.zero_le _

/-- A certificate of one scope and short constraints is short. -/
theorem textLength_certMembers_le {c : DelegationCertV2} {s : String} (h : CertValid P c)
    (hsig : SignatureLengths c.signature) (hcs : ShortConstraints c.constraints)
    (hs : c.scope = [s]) : textLength (.obj (certMembers c true)) ≤ 20000 := by
  have hversion : (encodeInt 2).length = 1 := rfl
  have hid := length_encodeString_utf8_le h.certId.2
  have hscope := length_encodeString_utf8_le (h.scopes s (hs ▸ List.mem_singleton_self s))
  have hissuer := length_id_le h.issuer.1
  have hsubject := length_id_le h.subject.1
  have hissued := length_encodeInt_le
    ⟨h.issuedAt.1, h.issuedAt.2.trans (by decide : v2MaxTimestampSeconds ≤ maxSafe)⟩
  have hexpires := length_encodeInt_le
    ⟨h.expiresAt.1, h.expiresAt.2.trans (by decide : v2MaxTimestampSeconds ≤ maxSafe)⟩
  have hkeys : (encodeString "cert_id".toList).length = 9 ∧
      (encodeString "constraints".toList).length = 13 ∧
      (encodeString "expires_at".toList).length = 12 ∧
      (encodeString "issued_at".toList).length = 11 ∧
      (encodeString "issuer_id".toList).length = 11 ∧
      (encodeString "issuer_pub_key".toList).length = 16 ∧
      (encodeString "scope".toList).length = 7 ∧ (encodeString "subject_id".toList).length = 12 ∧
      (encodeString "subject_pub_key".toList).length = 17 ∧
      (encodeString "version".toList).length = 9 ∧
      (encodeString "signature".toList).length = 11 :=
    ⟨rfl, rfl, rfl, rfl, rfl, rfl, rfl, rfl, rfl, rfl, rfl⟩
  simp only [maxIdentifierLengthBytes, maxScopeLengthBytes] at hid hscope
  have hlength := hcs.length
  simp only [certMembers, certBody, hs, h.version, CJ.strs, ↓reduceIte,
    List.map_cons, List.map_nil, List.cons_append, List.nil_append, textLength, membersLength,
    itemsLength, hkeys, hversion, textLength_key (keyLengths_of_keyIdV2 h.issuer.2),
    textLength_key (keyLengths_of_keyIdV2 h.subject.2), textLength_sig hsig, List.length_cons, List.length_nil]
  omega

/-- A valid bundle of one such certificate, outside of a stream. -/
structure PlainBundle (P : Primitives) (b : ProofBundleV2) : Prop where
  valid : BundleValid P b
  cert : ∃ c s, b.delegations = [c] ∧ ShortConstraints c.constraints ∧ c.scope = [s]
  agentKey : KeyLengths b.agentPubKey
  streamId : b.streamId = none

theorem textLength_optBytesCj_le {v : Option Bytes} {n : Nat} (h : ∀ b, v = some b → b.length = n) :
    textLength (optBytesCj v) ≤ 2 * n + 6 := by
  cases v with
  | none => simp only [optBytesCj, Option.elim_none, textLength]; omega
  | some b =>
    have hb := h b rfl
    simp only [optBytesCj, Option.elim_some, textLength]
    omega

theorem PlainBundle.textLength_le {b : ProofBundleV2} (h : PlainBundle P b) :
    textLength (.obj (bundleMembers b)) ≤ 32000 := by
  obtain ⟨c, s, hc, hcs, hs⟩ := h.cert
  obtain ⟨hvalid, hsig⟩ := h.valid.certs c (hc ▸ List.mem_singleton_self c)
  have hcert := textLength_certMembers_le hvalid hsig hcs hs
  have hversion : (encodeInt 2).length = 1 := rfl
  have hagent := length_id_le h.valid.agent
  have hverifier := length_id_le h.valid.verifier
  have hchallenge := length_encodeInt_le ⟨h.valid.challengeAt.1,
    h.valid.challengeAt.2.trans (by decide : v2MaxTimestampSeconds ≤ maxSafe)⟩
  have hsession := textLength_optBytesCj_le h.valid.session
  have hseq : b.streamSeq = none := by
    have hboth := h.valid.streamBoth
    rw [h.streamId] at hboth
    exact Option.not_isSome_iff_eq_none.mp (by simp [← hboth])
  have hkeys : (encodeString "agent_id".toList).length = 10 ∧
      (encodeString "agent_pub_key".toList).length = 15 ∧
      (encodeString "challenge".toList).length = 11 ∧
      (encodeString "challenge_at".toList).length = 14 ∧
      (encodeString "delegation_digest".toList).length = 19 ∧
      (encodeString "session_context".toList).length = 17 ∧
      (encodeString "stream_id".toList).length = 11 ∧
      (encodeString "stream_seq".toList).length = 12 ∧
      (encodeString "verifier_id".toList).length = 13 ∧
      (encodeString "version".toList).length = 9 ∧
      (encodeString "challenge_sig".toList).length = 15 ∧
      (encodeString "delegations".toList).length = 13 :=
    ⟨rfl, rfl, rfl, rfl, rfl, rfl, rfl, rfl, rfl, rfl, rfl, rfl⟩
  have hstream : textLength (optBytesCj none) = 4 := by
    simp only [optBytesCj, Option.elim_none, textLength]
  rw [bundleMembers, hc, List.map_singleton]
  generalize CJ.obj (certMembers c true) = value at hcert ⊢
  simp only [bundleBody, presentationBody, hseq, h.streamId, h.valid.version,
    h.valid.challenge, h.valid.digest, hstream, Option.elim_none,
    List.cons_append, List.nil_append, textLength, membersLength,
    itemsLength, hkeys, hversion, textLength_key h.agentKey, textLength_sig h.valid.lengths,
    List.length_cons, List.length_nil]
  omega

/-- Such a bundle has a wire form. -/
theorem PlainBundle.exists_wire {b : ProofBundleV2} (h : PlainBundle P b) :
    ∃ wire, canonical (.obj (bundleMembers b)) = .ok wire ∧ decodeProofBundleV2 P wire = .ok b
      ∧ encodeProofBundleV2 P b = .ok wire := by
  obtain ⟨c, _, hc, hcs, -⟩ := h.cert
  have hseq : ∀ s, b.streamSeq = some s → s ≤ maxSafe := by
    intro s hs
    have hboth := h.valid.streamBoth
    rw [h.streamId, hs] at hboth
    cases hboth
  have hnests : ∀ c ∈ b.delegations, ∀ k ∈ c.constraints, k.Nests 11 := by
    intro c' hc'
    rw [hc, List.mem_singleton] at hc'
    exact hc' ▸ hcs.nests
  have hnormal : b.normal = b := by
    have hcert : c.normal = c := by rw [DelegationCertV2.normal, hcs.normal]
    rw [ProofBundleV2.normal, hc, List.map_singleton, hcert, ← hc]
  have hlimit : 4 * 32000 ≤ maxProofBundleBytesV2 := by decide
  exact exists_bundleWire h.valid hseq hnests hnormal
    ((Nat.mul_le_mul_left 4 h.textLength_le).trans hlimit)

/-! ## Revocation objects -/

theorem listFormat_canonical : listFormat.Canonical where
  bounded := fun _ _ h => decode_size_list h
  written := by
    intro t l h
    obtain ⟨hwf, -⟩ := decodeRevocationListV2_sound h
    exact (wireValue_listCj hwf true).exists_canonical
  encodes := by
    intro t l h e
    obtain ⟨hwf, hsig⟩ := decodeRevocationListV2_sound h
    refine encodeRevocationListV2_eq_ok_iff.trans ⟨fun he => he.2.2, fun he => ⟨hwf, hsig, he⟩⟩
  reads := by
    intro t l h e htext hlen
    obtain ⟨hwf, hsig⟩ := decodeRevocationListV2_sound h
    exact decodeRevocationListV2_canonical hwf hsig htext hlen

theorem pushFormat_canonical : pushFormat.Canonical where
  bounded := fun _ _ h => decode_size_push h
  written := by
    intro t p h
    obtain ⟨hwf, -⟩ := decodeRevocationPushV2_sound h
    exact (wireValue_pushCj hwf true).exists_canonical
  encodes := by
    intro t p h e
    obtain ⟨hwf, hsig⟩ := decodeRevocationPushV2_sound h
    refine encodeRevocationPushV2_eq_ok_iff.trans ⟨fun he => he.2.2, fun he => ⟨hwf, hsig, he⟩⟩
  reads := by
    intro t p h e htext hlen
    obtain ⟨hwf, hsig⟩ := decodeRevocationPushV2_sound h
    exact decodeRevocationPushV2_canonical hwf hsig htext hlen

/-! ## The law -/

/-- Every byte string that a decoder accepts has one canonical text.  The encoder writes
that text and nothing else, exactly when it is within the size limit; then the decoder
reads it back, and no other value encodes to it. -/
theorem wireFormats_roundTrip (P : Primitives) :
    (∀ t c, decodeDelegationCertV2 P t = .ok c → ∃ e, (certFormat P).RoundTrip c e)
      ∧ (∀ t b, decodeProofBundleV2 P t = .ok b → ∃ e, (bundleFormat P).RoundTrip b e)
      ∧ (∀ t l, decodeRevocationListV2 t = .ok l → ∃ e, listFormat.RoundTrip l e)
      ∧ ∀ t p, decodeRevocationPushV2 t = .ok p → ∃ e, pushFormat.RoundTrip p e := by
  refine ⟨fun t c h => ?_, fun t b h => ?_, fun t l h => ?_, fun t p h => ?_⟩
  · exact certFormat_canonical.roundTrip h
  · exact bundleFormat_canonical.roundTrip h
  · exact listFormat_canonical.roundTrip h
  · exact pushFormat_canonical.roundTrip h

/-! ## Bundle hashes -/

variable (P)

/-- The texts whose SHA-384 names a bundle. -/
def bundleTexts (bs : Set ProofBundleV2) : Set Bytes :=
  {t | ∃ b ∈ bs, ∃ e, encodeProofBundleV2 P b = .ok e
    ∧ t = utf8 "ratify-protocol-bundle-v2\x00" ++ e}

variable {P}

/-- A decoded bundle is named by its hash, as far as SHA-384 keeps the bundles apart. -/
theorem bundleHashV2_injOn {bs : Set ProofBundleV2} (hinj : Set.InjOn P.sha384 (bundleTexts P bs))
    {t t' : Bytes} {b b' : ProofBundleV2} (hb : b ∈ bs) (hb' : b' ∈ bs)
    (h : decodeProofBundleV2 P t = .ok b) (h' : decodeProofBundleV2 P t' = .ok b') {hash : String}
    (hhash : bundleHashV2 P b = .ok hash) (hhash' : bundleHashV2 P b' = .ok hash) : b = b' := by
  obtain ⟨e, he, heq⟩ := bind_eq_ok_iff.mp hhash
  obtain ⟨e', he', heq'⟩ := bind_eq_ok_iff.mp hhash'
  have hnamed := Except.ok.inj (heq.trans heq'.symm)
  have hhex := (String.append_right_inj _).mp hnamed
  have hsha := hexEncode_injective hhex
  simp only [sha384, List.flatten_cons, List.flatten_nil, List.append_nil] at hsha
  have htext := hinj ⟨b, hb, e, he, rfl⟩ ⟨b', hb', e', he', rfl⟩ hsha
  obtain rfl := List.append_cancel_left htext
  exact bundleFormat_canonical.encode_injOn h' h he' he

end RatifyProtocol.V2
