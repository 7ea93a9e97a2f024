import RatifyProtocol.V2.Accepting
import RatifyProtocol.V2.Delegation.BundleCodec
set_option autoImplicit false

/-!
# V2: what a verified bundle is

`verify_proof_bundle_v2_signatures` of `v2/wire.rs`, taken apart once: a bundle passes
exactly when it is a signed chain.
-/

namespace RatifyProtocol.V2

open Foundation

/-- The issuer of a certificate is the subject of the next one up. -/
structure LinkedTo (c parent : DelegationCertV2) : Prop where
  id : c.issuerId = parent.subjectId
  key : c.issuerPubKey = parent.subjectPubKey

/-- By which a status list or a journal names a certificate. -/
def DelegationCertV2.reference (c : DelegationCertV2) : String × String := (c.issuerId, c.certId)

variable (P : Primitives)

/-- A certificate that its issuer signed. -/
def CertSigned (c : DelegationCertV2) : Prop :=
  ∃ signable, delegationCertV2SignableBytes c = .ok signable
    ∧ verifyV2Statement P .delegationCertificate signable c.signature c.issuerPubKey = .ok ()

/-- The agent signed the presentation of the challenge. -/
def PresentationSigned (b : ProofBundleV2) : Prop :=
  ∃ signable, presentationV2SignableBytes b = .ok signable
    ∧ verifyV2Statement P .challengePresentation signable b.challengeSig b.agentPubKey = .ok ()

/-- The form of a bundle before its signatures. -/
structure BundleForm (b : ProofBundleV2) : Prop where
  version : b.version = 2
  depth : b.delegations.length ≤ maxDelegationChainDepth
  challenge : b.challenge.length = 32
  digest : b.delegationDigest.length = 48
  sequence : ∀ s, b.streamSeq = some s → s ≤ maxSafe
  session : ∀ s, b.sessionContext = some s → s.length = 32
  streamBoth : b.streamId.isSome = b.streamSeq.isSome
  stream : streamBindingRefused b.streamId b.streamSeq = false
  agent : validV2Id b.agentId = true
  verifier : validV2Id b.verifierId = true

/-- A chain of valid certificates, each signed by its issuer and issued by the subject of
the next, from the agent up, and presented by the agent. -/
structure SignedChain (b : ProofBundleV2) : Prop extends BundleForm b where
  agentKey : keyIdV2 P b.agentPubKey = .ok b.agentId
  certs : ∀ c ∈ b.delegations, CertValid P c
  digested : delegationDigestV2 P b.delegations = .ok b.delegationDigest
  distinct : (b.delegations.map DelegationCertV2.reference).Nodup
  linked : b.delegations.IsChain LinkedTo
  leaf : ∀ c, b.delegations.head? = some c →
    c.subjectId = b.agentId ∧ c.subjectPubKey = b.agentPubKey
  signed : ∀ c ∈ b.delegations, CertSigned P c
  presented : PresentationSigned P b

variable {P}

/-- The loop finds each certificate new and linked to the next. -/
theorem chainLinked_eq_ok_iff {certs : List DelegationCertV2} :
    ∀ {seen : List (String × String)} {i : Nat}, chainLinked seen i certs = .ok () ↔
      certs.IsChain LinkedTo ∧ (certs.map DelegationCertV2.reference).Nodup
        ∧ ∀ c ∈ certs, c.reference ∉ seen := by
  induction certs with
  | nil => simp [chainLinked]
  | cons c certs ih =>
    intro seen i
    rw [chainLinked]
    by_cases hseen : seen.contains (c.issuerId, c.certId) = true
    · rw [if_pos hseen]
      refine iff_of_false err_ne_ok ?_
      rintro ⟨-, -, hnew⟩
      exact hnew c List.mem_cons_self (List.contains_iff_mem.mp hseen)
    rw [if_neg hseen]
    have hnew : c.reference ∉ seen := fun hmem => hseen (List.contains_iff_mem.mpr hmem)
    cases certs with
    | nil => simpa using hnew
    | cons parent certs =>
      simp only [List.head?_cons]
      by_cases hlink : LinkedTo c parent
      · have hsame : ¬ (c.issuerId ≠ parent.subjectId
            ∨ equalKeys c.issuerPubKey parent.subjectPubKey = false) := by
          rw [not_or, not_not, Bool.not_eq_false, equalKeys_iff]
          exact ⟨hlink.id, hlink.key⟩
        have hreferences : ((c :: parent :: certs).map DelegationCertV2.reference).Nodup ↔
            c.reference ∉ (parent :: certs).map DelegationCertV2.reference
              ∧ ((parent :: certs).map DelegationCertV2.reference).Nodup := by
          rw [List.map_cons, List.nodup_cons]
        rw [if_neg hsame, ih, List.isChain_cons_cons, hreferences]
        constructor
        · rintro ⟨hchain, hnodup, hrest⟩
          refine ⟨⟨hlink, hchain⟩, ⟨fun hmem => ?_, hnodup⟩, fun d hd => ?_⟩
          · obtain ⟨d, hd, heq⟩ := List.mem_map.mp hmem
            exact hrest d hd (heq ▸ List.mem_cons_self)
          · obtain rfl | hd := List.mem_cons.mp hd
            · exact hnew
            · exact fun hmem => hrest d hd (List.mem_cons_of_mem _ hmem)
        · rintro ⟨⟨-, hchain⟩, ⟨hfirst, hnodup⟩, hrest⟩
          refine ⟨hchain, hnodup, fun d hd hmem => ?_⟩
          obtain heq | hmem := List.mem_cons.mp hmem
          · exact hfirst (List.mem_map.mpr ⟨d, hd, heq⟩)
          · exact hrest d (List.mem_cons_of_mem c hd) hmem
      · have hdiffer : c.issuerId ≠ parent.subjectId
            ∨ equalKeys c.issuerPubKey parent.subjectPubKey = false := by
          by_contra hsame
          rw [not_or, not_not, Bool.not_eq_false, equalKeys_iff] at hsame
          exact hlink ⟨hsame.1, hsame.2⟩
        rw [if_pos hdiffer]
        refine iff_of_false err_ne_ok ?_
        rintro ⟨hchain, -⟩
        exact hlink (List.isChain_cons_cons.mp hchain).1

theorem verifyCertSignatures_eq_ok_iff {certs : List DelegationCertV2} :
    ∀ {i : Nat}, verifyCertSignatures P i certs = .ok () ↔ ∀ c ∈ certs, CertSigned P c := by
  induction certs with
  | nil => simp [verifyCertSignatures]
  | cons c certs ih =>
    intro i
    simp only [verifyCertSignatures, bind_eq_ok_iff, classify_eq_ok_iff, withContext_eq_ok_iff, ih,
      List.forall_mem_cons]
    constructor
    · rintro ⟨signable, hsignable, _, hverify, hrest⟩
      exact ⟨⟨signable, hsignable, hverify⟩, hrest⟩
    · rintro ⟨⟨signable, hsignable, hverify⟩, hrest⟩
      exact ⟨signable, hsignable, (), hverify, hrest⟩

/-- The bounds of a bundle as the code tests them. -/
theorem bundleForm_iff {b : ProofBundleV2} : BundleForm b ↔
    ¬ b.version ≠ 2
      ∧ ¬ (b.delegations.length > maxDelegationChainDepth ∨ b.challenge.length ≠ 32
        ∨ b.delegationDigest.length ≠ 48)
      ∧ ¬ (b.streamSeq.any fun s => decide (s > maxSafe)) = true
      ∧ ¬ (b.sessionContext.any fun s => decide (s.length ≠ 32)) = true
      ∧ ¬ (b.streamId.isSome != b.streamSeq.isSome
        || streamBindingRefused b.streamId b.streamSeq) = true
      ∧ ¬ (!validV2Id b.agentId || !validV2Id b.verifierId) = true := by
  have hsequence : (b.streamSeq.any fun s => decide (s > maxSafe)) = false
      ↔ ∀ s, b.streamSeq = some s → s ≤ maxSafe := by
    cases b.streamSeq <;> simp
  have hsession : (b.sessionContext.any fun s => decide (s.length ≠ 32)) = false
      ↔ ∀ s, b.sessionContext = some s → s.length = 32 := by
    cases b.sessionContext <;> simp
  simp only [Bool.not_eq_true, hsequence, hsession, not_not, not_or, not_lt, gt_iff_lt,
    Bool.or_eq_false_iff, bne_eq_false_iff_eq, Bool.not_eq_false']
  constructor
  · intro h
    exact ⟨h.version, ⟨h.depth, h.challenge, h.digest⟩, h.sequence, h.session,
      ⟨h.streamBoth, h.stream⟩, h.agent, h.verifier⟩
  · rintro ⟨h₁, ⟨h₂, h₃, h₄⟩, h₅, h₆, ⟨h₇, h₈⟩, h₉, h₁₀⟩
    exact ⟨h₁, h₂, h₃, h₄, h₅, h₆, h₇, h₈, h₉, h₁₀⟩

/-- The subject of the leaf is the agent. -/
def LeafOf (b : ProofBundleV2) : Prop :=
  ∀ c, b.delegations.head? = some c → c.subjectId = b.agentId ∧ c.subjectPubKey = b.agentPubKey

theorem leafCheck_eq_ok_iff {b : ProofBundleV2} :
    (match b.delegations.head? with
      | some leaf =>
        if leaf.subjectId ≠ b.agentId ∨ equalKeys leaf.subjectPubKey b.agentPubKey = false then
          err .chainLinkageMismatch "agent key does not match leaf delegation subject"
        else .ok ()
      | none => .ok () : V2Result Unit) = .ok () ↔ LeafOf b := by
  rw [LeafOf]
  cases b.delegations.head? with
  | none => simp
  | some leaf =>
    simp only [Option.some.injEq, forall_eq']
    by_cases hleaf : leaf.subjectId = b.agentId ∧ leaf.subjectPubKey = b.agentPubKey
    · have hsame : ¬ (leaf.subjectId ≠ b.agentId
          ∨ equalKeys leaf.subjectPubKey b.agentPubKey = false) := by
        rw [not_or, not_not, Bool.not_eq_false, equalKeys_iff]
        exact hleaf
      rw [if_neg hsame]
      exact iff_of_true rfl hleaf
    · have hdiffer : leaf.subjectId ≠ b.agentId
          ∨ equalKeys leaf.subjectPubKey b.agentPubKey = false := by
        by_contra hsame
        rw [not_or, not_not, Bool.not_eq_false, equalKeys_iff] at hsame
        exact hleaf hsame
      rw [if_pos hdiffer]
      exact iff_of_false err_ne_ok hleaf

theorem verifyProofBundleV2Structure_eq_ok_iff {b : ProofBundleV2} :
    verifyProofBundleV2Structure P b = .ok () ↔
      BundleForm b ∧ keyIdV2 P b.agentPubKey = .ok b.agentId
        ∧ (∀ c ∈ b.delegations, CertValid P c)
        ∧ delegationDigestV2 P b.delegations = .ok b.delegationDigest
        ∧ (b.delegations.IsChain LinkedTo
          ∧ (b.delegations.map DelegationCertV2.reference).Nodup) ∧ LeafOf b := by
  have hchain : chainLinked [] 0 b.delegations = .ok () ↔
      b.delegations.IsChain LinkedTo
        ∧ (b.delegations.map DelegationCertV2.reference).Nodup := by
    rw [chainLinked_eq_ok_iff]
    simp
  unfold verifyProofBundleV2Structure
  by_cases hform : BundleForm b
  · obtain ⟨h₁, h₂, h₃, h₄, h₅, h₆⟩ := bundleForm_iff.mp hform
    rw [if_neg h₁, if_neg h₂, if_neg h₃, if_neg h₄, if_neg h₅, if_neg h₆]
    simp only [bind_eq_ok_iff, classify_eq_ok_iff, hform, true_and]
    constructor
    · rintro ⟨agentId, hagent, h⟩
      split_ifs at h with hsame
      · cases h
      obtain rfl : agentId = b.agentId := not_not.mp hsame
      obtain ⟨_, hcerts, h⟩ := bind_eq_ok_iff.mp h
      have hcerts : ∀ c ∈ b.delegations, CertValid P c := fun c hc =>
        validateDelegationCertV2_eq_ok_iff.mp
          (classify_eq_ok_iff.mp (checkEach_eq_ok_iff.mp hcerts c hc))
      obtain ⟨digest, hdigest, h⟩ := bind_eq_ok_iff.mp h
      have hdigest := classify_eq_ok_iff.mp hdigest
      split_ifs at h with hdigested
      · cases h
      obtain rfl : digest = b.delegationDigest := not_not.mp hdigested
      obtain ⟨_, hlinked, hleaf⟩ := bind_eq_ok_iff.mp h
      exact ⟨hagent, hcerts, hdigest, hchain.mp hlinked, leafCheck_eq_ok_iff.mp hleaf⟩
    · rintro ⟨hagent, hcerts, hdigest, hlinked, hleaf⟩
      refine ⟨b.agentId, hagent, ?_⟩
      rw [if_neg (not_not.mpr rfl)]
      refine bind_eq_ok_iff.mpr ⟨(), checkEach_eq_ok_iff.mpr fun c hc => ?_, ?_⟩
      · rw [classify_eq_ok_iff, validateDelegationCertV2_eq_ok_iff]
        exact hcerts c hc
      refine bind_eq_ok_iff.mpr ⟨b.delegationDigest, classify_eq_ok_iff.mpr hdigest, ?_⟩
      rw [if_neg (not_not.mpr rfl)]
      exact bind_eq_ok_iff.mpr ⟨(), hchain.mpr hlinked, leafCheck_eq_ok_iff.mpr hleaf⟩
  · refine iff_of_false (fun h => hform (bundleForm_iff.mpr ?_)) fun h => hform h.1
    split at h
    · exact absurd h err_ne_ok
    rename_i h₁
    split at h
    · exact absurd h err_ne_ok
    rename_i h₂
    split at h
    · exact absurd h err_ne_ok
    rename_i h₃
    split at h
    · exact absurd h err_ne_ok
    rename_i h₄
    split at h
    · exact absurd h err_ne_ok
    rename_i h₅
    split at h
    · exact absurd h err_ne_ok
    rename_i h₆
    exact ⟨h₁, h₂, h₃, h₄, h₅, h₆⟩

/-- A bundle passes verification exactly when it is a signed chain that the agent presents. -/
theorem verifyProofBundleV2Signatures_eq_ok_iff {b : ProofBundleV2} :
    verifyProofBundleV2Signatures P b = .ok () ↔ SignedChain P b := by
  rw [verifyProofBundleV2Signatures]
  constructor
  · intro h
    obtain ⟨_, hstructure, h⟩ := bind_eq_ok_iff.mp h
    obtain ⟨_, hsigned, h⟩ := bind_eq_ok_iff.mp h
    obtain ⟨signable, hsignable, hverify⟩ := bind_eq_ok_iff.mp h
    obtain ⟨hform, hagent, hcerts, hdigest, ⟨hlinked, hdistinct⟩, hleaf⟩ :=
      verifyProofBundleV2Structure_eq_ok_iff.mp hstructure
    exact
      { toBundleForm := hform, agentKey := hagent, certs := hcerts, digested := hdigest
        distinct := hdistinct, linked := hlinked, leaf := hleaf
        signed := verifyCertSignatures_eq_ok_iff.mp hsigned
        presented := ⟨signable, classify_eq_ok_iff.mp hsignable, hverify⟩ }
  · intro h
    obtain ⟨signable, hsignable, hverify⟩ := h.presented
    have hstructure : verifyProofBundleV2Structure P b = .ok () :=
      verifyProofBundleV2Structure_eq_ok_iff.mpr
        ⟨h.toBundleForm, h.agentKey, h.certs, h.digested, ⟨h.linked, h.distinct⟩, h.leaf⟩
    have hsigned : verifyCertSignatures P 0 b.delegations = .ok () :=
      verifyCertSignatures_eq_ok_iff.mpr h.signed
    rw [hstructure, ok_bind, hsigned, ok_bind, hsignable]
    exact hverify

/-! ## What can be signed -/

variable {b : ProofBundleV2} {levels : Nat}

/-- The texts that the keys of a bundle sign. -/
structure Signable (P : Primitives) (b : ProofBundleV2) : Prop where
  certs : ∀ c ∈ b.delegations, ∃ text, delegationCertV2SignableBytes c = .ok text
  digest : ∃ digest, delegationDigestV2 P b.delegations = .ok digest
  presentation : ∃ text, presentationV2SignableBytes b = .ok text

/-- A bundle that passes the checks of its decoder can be signed. -/
theorem BundleValid.signable (hb : BundleValid P b) (hseq : ∀ s, b.streamSeq = some s → s ≤ maxSafe)
    (hnests : ∀ c ∈ b.delegations, ∀ k ∈ c.constraints, k.Nests levels) : Signable P b where
  certs := by
    intro c hc
    obtain ⟨text, htext⟩ := (wireBody_cert (hb.certs c hc).1 (hnests c hc) false).exists_canonical
    have hcj : certCj c false = .ok (.obj (certMembers c false)) :=
      certCj_eq_ok_iff.mpr ⟨rfl, (hb.certs c hc).1.constraints⟩
    exact ⟨text, bind_eq_ok_iff.mpr ⟨_, hcj, htext⟩⟩
  digest := by
    have hcerts : WireBody (levels + 4)
        (.arr (b.delegations.map fun c => .obj (certMembers c true))) := by
      refine .arr (levels + 3) _ fun v hv => ?_
      obtain ⟨c, hc, rfl⟩ := List.mem_map.mp hv
      exact wireBody_cert (hb.certs c hc).1 (hnests c hc) true
    obtain ⟨text, htext⟩ := hcerts.exists_canonical
    have hcj := certsCj_eq_ok_iff.mpr ⟨rfl, fun c hc => (hb.certs c hc).1.constraints⟩
    exact ⟨_, bind_eq_ok_iff.mpr ⟨_, hcj, bind_eq_ok_iff.mpr ⟨text, htext, rfl⟩⟩⟩
  presentation := by
    -- The members of a presentation are members of the bundle.
    have hmembers : ∀ f ∈ presentationBody b, ∃ text, write f.2 = .ok text := by
      obtain ⟨text, htext⟩ := (wireBody_bundle hb hseq hnests).exists_write
      exact fun f hf => exists_write_of_obj ⟨text, htext⟩ f (List.mem_append_left _ hf)
    obtain ⟨text, htext⟩ := exists_write_obj hmembers
    exact ⟨utf8Chars text, by simp only [presentationV2SignableBytes, canonical, htext, ok_bind]⟩

/-- Where every signature is accepted, a bundle of linked certificates is a signed chain. -/
theorem Accepting.signedChain (h : Accepting P) (hb : Signable P b) (hform : BundleForm b)
    (hcerts : ∀ c ∈ b.delegations, CertValid P c) (hlinked : b.delegations.IsChain LinkedTo)
    (hdistinct : (b.delegations.map DelegationCertV2.reference).Nodup) (hleaf : LeafOf b)
    (hdigest : delegationDigestV2 P b.delegations = .ok b.delegationDigest)
    (hagent : ∃ n, b.agentPubKey = tabledKey n ∧ b.challengeSig = tabledSignature
      ∧ b.agentId = hexEncode (n :: List.replicate 31 0))
    (hissuers : ∀ c ∈ b.delegations, ∃ n, c.issuerPubKey = tabledKey n
      ∧ c.signature = tabledSignature) : SignedChain P b where
  toBundleForm := hform
  agentKey := by
    obtain ⟨n, hkey, -, hid⟩ := hagent
    rw [hkey, hid]
    exact h.keyIdV2 n
  certs := hcerts
  digested := hdigest
  distinct := hdistinct
  linked := hlinked
  leaf := hleaf
  signed := by
    intro c hc
    obtain ⟨text, htext⟩ := hb.certs c hc
    obtain ⟨n, hkey, hsignature⟩ := hissuers c hc
    exact ⟨text, htext, by rw [hkey, hsignature]; exact h.verify _ text n⟩
  presented := by
    obtain ⟨text, htext⟩ := hb.presentation
    obtain ⟨n, hkey, hsignature, -⟩ := hagent
    exact ⟨text, htext, by rw [hkey, hsignature]; exact h.verify _ text n⟩

end RatifyProtocol.V2
