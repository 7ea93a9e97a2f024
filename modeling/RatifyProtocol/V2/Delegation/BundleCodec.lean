import RatifyProtocol.V2.Delegation.Bundle
import RatifyProtocol.V2.Delegation.ConstraintCodec
import RatifyProtocol.V2.WireCodec
set_option autoImplicit false

/-!
# V2: certificates and bundles survive the wire

The canonical text of a certificate or bundle decodes to it, but for the members
of its constraints outside their schema.  What a decoder returns validates, has
no such members and nests within the wire limit, so its canonical text, where it
is within the size limit, decodes to the object itself.
-/

namespace RatifyProtocol.V2

open Foundation

/-! ## Validated certificates -/

/-- A certificate that passes `validate_delegation_cert_v2`. -/
structure CertValid (P : Primitives) (c : DelegationCertV2) : Prop where
  version : c.version = 2
  issuedAt : 0 ≤ c.issuedAt ∧ c.issuedAt ≤ v2MaxTimestampSeconds
  expiresAt : 0 ≤ c.expiresAt ∧ c.expiresAt ≤ v2MaxTimestampSeconds
  certId : c.certId ≠ "" ∧ (utf8 c.certId).length ≤ maxIdentifierLengthBytes
  issuer : validV2Id c.issuerId = true ∧ keyIdV2 P c.issuerPubKey = .ok c.issuerId
  subject : validV2Id c.subjectId = true ∧ keyIdV2 P c.subjectPubKey = .ok c.subjectId
  scopes : ∀ s ∈ c.scope, (utf8 s).length ≤ maxScopeLengthBytes
  scopeCount : c.scope.length ≤ maxScopesPerCert
  constraintCount : c.constraints.length ≤ maxConstraintsPerCert
  constraints : ∀ k ∈ c.constraints, ∃ v, k.toCj = .ok v

variable {P : Primitives}

theorem discard_eq_ok_iff {α : Type} {x : V2Result α} :
    (do let _ ← x) = (.ok () : V2Result Unit) ↔ ∃ a, x = .ok a := by
  cases x <;> simp [bind, Except.bind, pure, Except.pure]

theorem validateDelegationCertV2_eq_ok_iff {c : DelegationCertV2} :
    validateDelegationCertV2 P c = .ok () ↔ CertValid P c := by
  unfold validateDelegationCertV2
  simp only [refuseIf_bind_eq_ok_iff, bind_eq_ok_iff (x := withContext _ _),
    withContext_eq_ok_iff, bne_eq_false_iff_eq, Bool.or_eq_false_iff, Bool.not_eq_false',
    validV2Timestamp_iff, beq_eq_false_iff_ne, decide_eq_false_iff_not, not_lt, gt_iff_lt]
  constructor
  · rintro ⟨hversion, ⟨hissued, hexpires⟩, hid, ⟨hissuer, hsubject⟩, issuer, hik, subject, hsk, h⟩
    split_ifs at h with hne
    · simp at h
    · obtain ⟨hscopes, h⟩ := refuseIf_bind_eq_ok_iff.mp h
      obtain ⟨hcounts, h⟩ := refuseIf_bind_eq_ok_iff.mp h
      simp only [not_or, not_not, ne_eq] at hne
      obtain ⟨rfl, rfl⟩ := hne
      have hcounts : c.scope.length ≤ maxScopesPerCert
          ∧ c.constraints.length ≤ maxConstraintsPerCert := by
        simpa [not_or] using hcounts
      exact
        { version := hversion, issuedAt := hissued, expiresAt := hexpires, certId := hid
          issuer := ⟨hissuer, hik⟩, subject := ⟨hsubject, hsk⟩
          scopes := by simpa using hscopes
          scopeCount := hcounts.1, constraintCount := hcounts.2
          constraints := fun k hk => discard_eq_ok_iff.mp (checkEach_eq_ok_iff.mp h k hk) }
  · intro h
    refine ⟨h.version, ⟨h.issuedAt, h.expiresAt⟩, h.certId, ⟨h.issuer.1, h.subject.1⟩,
      c.issuerId, h.issuer.2, c.subjectId, h.subject.2, ?_⟩
    have hscopes : (c.scope.any fun s => decide ((utf8 s).length > maxScopeLengthBytes)) = false := by
      simpa using h.scopes
    have hcounts : decide (c.scope.length > maxScopesPerCert
        ∨ c.constraints.length > maxConstraintsPerCert) = false := by
      simpa [not_or] using And.intro h.scopeCount h.constraintCount
    have hconstraints : checkEach "constraint" (fun c => do let _ ← c.toCj) 0 c.constraints
        = .ok () := checkEach_eq_ok_iff.mpr fun k hk => discard_eq_ok_iff.mpr (h.constraints k hk)
    simp only [ne_eq, not_true_eq_false, or_self, ↓reduceIte, hscopes, hcounts, refuseIf,
      hconstraints]
    rfl

/-! ## The value of a certificate -/

/-- The members of a certificate, its signature included or not. -/
def certMembers (c : DelegationCertV2) (signed : Bool) : List (String × CJ) :=
  certBody c (c.constraints.map fun k => .obj (constraintBody k))
    ++ if signed then [("signature", CJ.sig c.signature)] else []

theorem constraintsCj_eq_ok_iff {cs : List ConstraintV2} {vs : List CJ} :
    constraintsCj cs = .ok vs ↔ vs = cs.map (fun k => .obj (constraintBody k))
      ∧ ∀ k ∈ cs, ∃ v, k.toCj = .ok v := by
  unfold constraintsCj
  rw [mapM_eq_ok_iff]
  induction cs generalizing vs with
  | nil => simp
  | cons c cs ih =>
    constructor
    · intro h
      cases h with
      | cons hc hcs =>
        obtain ⟨rfl, hall⟩ := ih.mp hcs
        obtain ⟨rfl, -⟩ := ConstraintV2.toCj_eq_ok hc
        exact ⟨rfl, List.forall_mem_cons.mpr ⟨⟨_, hc⟩, hall⟩⟩
    · rintro ⟨rfl, hall⟩
      obtain ⟨⟨v, hv⟩, hrest⟩ := List.forall_mem_cons.mp hall
      obtain ⟨rfl, -⟩ := ConstraintV2.toCj_eq_ok hv
      exact .cons hv (ih.mpr ⟨rfl, hrest⟩)

theorem certCj_eq_ok_iff {c : DelegationCertV2} {signed : Bool} {v : CJ} :
    certCj c signed = .ok v ↔
      v = .obj (certMembers c signed) ∧ ∀ k ∈ c.constraints, ∃ w, k.toCj = .ok w := by
  simp only [certCj, bind_eq_ok_iff, constraintsCj_eq_ok_iff, Except.ok.injEq]
  constructor
  · rintro ⟨_, ⟨rfl, hall⟩, rfl⟩
    exact ⟨rfl, hall⟩
  · rintro ⟨rfl, hall⟩
    exact ⟨_, ⟨rfl, hall⟩, rfl⟩

theorem nodup_certMembers (c : DelegationCertV2) (signed : Bool) :
    ((certMembers c signed).map Prod.fst).Nodup := by
  cases signed <;> simp [certMembers, certBody]

/-- The certificate with its constraints' members outside their schema dropped. -/
def DelegationCertV2.normal (c : DelegationCertV2) : DelegationCertV2 :=
  { c with constraints := c.constraints.map ConstraintV2.schema }

/-- The value of a validated certificate is a wire body. -/
theorem wireBody_cert {levels : Nat} {c : DelegationCertV2} (hc : CertValid P c)
    (hnests : ∀ k ∈ c.constraints, k.Nests levels) (signed : Bool) :
    WireBody (levels + 3) (.obj (certMembers c signed)) := by
  have hconstraints : WireBody (levels + 2)
      (.arr (c.constraints.map fun k => .obj (constraintBody k))) := by
    refine .arr (levels + 1) _ fun v hv => ?_
    obtain ⟨k, hk, rfl⟩ := List.mem_map.mp hv
    obtain ⟨w, hw⟩ := hc.constraints k hk
    obtain ⟨rfl, -⟩ := ConstraintV2.toCj_eq_ok hw
    exact wireBody_constraint hw (hnests k hk)
  have hbody : ∀ f ∈ certMembers c signed, WireBody (levels + 2) f.2 := by
    have hunsigned : ∀ f ∈ certBody c (c.constraints.map fun k => .obj (constraintBody k)),
        WireBody (levels + 2) f.2 := by
      simp only [certBody, List.forall_mem_cons]
      exact ⟨.str _ _, hconstraints, .int _ _ (safe_timestamp hc.expiresAt),
        .int _ _ (safe_timestamp hc.issuedAt), .str _ _, (wireValue_key _ _).body,
        (wireValue_strs _ _).body, .str _ _, (wireValue_key _ _).body,
        .int _ _ (safe_version hc.version), by simp⟩
    intro f hf
    rcases List.mem_append.mp hf with hf | hf
    · exact hunsigned f hf
    · cases signed with
      | false => exact absurd hf List.not_mem_nil
      | true =>
        obtain rfl := List.mem_singleton.mp hf
        exact (wireValue_sig _ _).body
  have hnames : ∀ f ∈ certMembers c signed, f.1 ∈ delegationFields := by
    cases signed <;> simp [certMembers, certBody, delegationFields]
  have hplain : ∀ name ∈ delegationFields, name ∉ wireByteFields ∧ name ≠ "params" := by
    simp [delegationFields, wireByteFields]
  refine .obj _ _ (nodup_certMembers c signed) ?_ ?_ ?_ ?_
  · exact fun f hf hname => absurd hname (hplain _ (hnames f hf)).1
  · exact fun f hf hname => absurd hname (hplain _ (hnames f hf)).2
  · intro f hf _ hnull
    have hf' := hbody f hf
    rw [hnull] at hf'
    cases hf'
  · exact fun f hf _ _ => hbody f hf

/-! ## Reading a certificate back -/

variable {levels : Nat} {c : DelegationCertV2} {n : JNode}

theorem fits_constraint (hfits : Fits levels (.obj (certMembers c true)))
    (hle : levels ≤ maxJsonNestingDepth) {k : ConstraintV2} (hk : k ∈ c.constraints) :
    Fits maxJsonNestingDepth (.obj (constraintBody k)) := by
  cases hfits with
  | obj l _ _ hvalues =>
    have harr := hvalues ("constraints", .arr (c.constraints.map fun k => .obj (constraintBody k)))
      (by simp [certMembers, certBody])
    cases harr with
    | arr l _ hitems =>
      exact (hitems _ (List.mem_map_of_mem hk)).mono (by omega)

/-- A certificate's value decodes to the certificate in normal form. -/
theorem certFromNode_of_denotes (hc : ∀ k ∈ c.constraints, ∃ v, k.toCj = .ok v)
    (hfits : Fits levels (.obj (certMembers c true))) (hle : levels ≤ maxJsonNestingDepth)
    (hwrite : ∃ t, write (.obj (certMembers c true)) = .ok t)
    (hn : Denotes (.obj (certMembers c true)) n) : certFromNode n = .ok c.normal := by
  obtain ⟨o, ho, hview⟩ := objView_of_denotes hn (nodup_certMembers c true)
  have hwrites := exists_write_of_obj hwrite
  have hint : ∀ {k : String} {i : Int}, (k, .int i) ∈ certMembers c true → o.i64 k = .ok i :=
    fun hmem => hview.i64_ok hmem (safe_of_write (hwrites _ hmem))
  have honly : o.only delegationFields = .ok () :=
    hview.only_ok _ (by simp [certMembers, certBody, delegationFields])
  have hmember : ("constraints", CJ.arr (c.constraints.map fun k => .obj (constraintBody k)))
      ∈ certMembers c true := by simp [certMembers, certBody]
  obtain ⟨raw, hraw, hden⟩ := hview.array_ok hmember
  have hconstraints : raw.mapM ConstraintV2.fromNode
      = .ok (c.constraints.map ConstraintV2.schema) := by
    refine mapM_reads (fun k hk m hm => ?_) hden
    obtain ⟨w, hw⟩ := hc k hk
    obtain ⟨rfl, -⟩ := ConstraintV2.toCj_eq_ok hw
    exact fromNode_of_denotes hw (fits_constraint hfits hle hk) hm
  have hversion : o.i64 "version" = .ok c.version := hint (by simp [certMembers, certBody])
  have hid : o.str "cert_id" = .ok c.certId := hview.str_ok (by simp [certMembers, certBody])
  have hissuer : o.str "issuer_id" = .ok c.issuerId :=
    hview.str_ok (by simp [certMembers, certBody])
  have hissuerKey : o.pubKey "issuer_pub_key" = .ok c.issuerPubKey :=
    hview.pubKey_ok (by simp [certMembers, certBody])
  have hsubject : o.str "subject_id" = .ok c.subjectId :=
    hview.str_ok (by simp [certMembers, certBody])
  have hsubjectKey : o.pubKey "subject_pub_key" = .ok c.subjectPubKey :=
    hview.pubKey_ok (by simp [certMembers, certBody])
  have hscope : o.strArray "scope" = .ok c.scope :=
    hview.strArray_ok (by simp [certMembers, certBody])
  have hissued : o.i64 "issued_at" = .ok c.issuedAt := hint (by simp [certMembers, certBody])
  have hexpires : o.i64 "expires_at" = .ok c.expiresAt := hint (by simp [certMembers, certBody])
  have hsig : o.sig "signature" = .ok c.signature := hview.sig_ok (by simp [certMembers])
  simp only [certFromNode, ho, honly, hraw, hconstraints, hversion, hid, hissuer, hissuerKey,
    hsubject, hsubjectKey, hscope, hissued, hexpires, hsig, ok_bind]
  rfl

theorem validateScopeItems_of_denotes {scopes : List String}
    (hscopes : ∀ s ∈ scopes, (utf8 s).length ≤ maxScopeLengthBytes) {ns : List JNode}
    (hns : List.Forall₂ Denotes (scopes.map .str) ns) : ∀ i, validateScopeItems i ns = .ok () := by
  induction scopes generalizing ns with
  | nil =>
    cases hns
    exact fun i => rfl
  | cons s scopes ih =>
    cases hns with
    | @cons _ n _ ns hs hrest =>
      intro i
      have hbounded : boundedScope n = true := by
        cases hs
        simpa [boundedScope, JNode.v] using hscopes s List.mem_cons_self
      rw [validateScopeItems, refuseIf_bind_eq_ok_iff, hbounded]
      exact ⟨rfl, ih (fun t ht => hscopes t (List.mem_cons_of_mem _ ht)) hrest (i + 1)⟩

/-- A validated certificate's value passes the shape checks. -/
theorem precheck_of_denotes (hc : CertValid P c)
    (hfits : Fits levels (.obj (certMembers c true))) (hle : levels ≤ maxJsonNestingDepth)
    (hn : Denotes (.obj (certMembers c true)) n) : precheckCertNode n = .ok () := by
  obtain ⟨o, ho, hview⟩ := objView_of_denotes hn (nodup_certMembers c true)
  have hrequire : o.require delegationFields [] = .ok () :=
    hview.require_ok _ (by simp [certMembers, certBody, delegationFields])
      (by simp [certMembers, certBody, CJ.key, CJ.sig, CJ.strs])
  obtain ⟨m, hm, hconstraints⟩ := hview.get "constraints"
    (.arr (c.constraints.map fun k => .obj (constraintBody k))) (by simp [certMembers, certBody])
  obtain ⟨scope, hscope, hscopes⟩ := hview.get "scope" (CJ.strs c.scope)
    (by simp [certMembers, certBody])
  cases hconstraints with
  | arr _ raw i j hden =>
    have harray : requireArray o "constraints" = .ok raw := by
      simp only [requireArray, hm, Option.map_some, JNode.v]
    have hscopeArray : validateV2ScopeArray scope = .ok () := by
      cases hscopes with
      | arr _ ns i j hns =>
        have hcount : ns.length = c.scope.length := by
          rw [← hns.length_eq, List.length_map]
        have hbound : decide (ns.length > maxScopesPerCert) = false := by
          rw [hcount]
          simpa using hc.scopeCount
        simp only [validateV2ScopeArray, JNode.v, hbound, refuseIf, Bool.false_eq_true, ↓reduceIte,
          ok_bind]
        exact validateScopeItems_of_denotes hc.scopes hns 0
    have heach : checkEach "wire v2 constraint" validateV2ConstraintFields 0 raw = .ok () := by
      rw [checkEach_eq_ok_iff]
      intro x hx
      obtain ⟨v, hv, hd⟩ := forall₂_left hden.flip x hx
      obtain ⟨k, hk, rfl⟩ := List.mem_map.mp hv
      obtain ⟨w, hw⟩ := hc.constraints k hk
      obtain ⟨rfl, -⟩ := ConstraintV2.toCj_eq_ok hw
      exact validate_of_denotes hw (fits_constraint hfits hle hk) hd
    simp only [precheckCertNode, ho, hrequire, harray, hscope, hscopeArray, heach, ok_bind]

/-! ## Decoded certificates -/

/-- A certificate whose constraints hold only members of their schema, with parameters
nested at most `levels` deep. -/
structure CertNormal (levels : Nat) (c : DelegationCertV2) : Prop where
  schema : ∀ k ∈ c.constraints, k.schema = k
  nests : ∀ k ∈ c.constraints, k.Nests levels

theorem CertNormal.normal_eq (h : CertNormal levels c) : c.normal = c := by
  have hmap : c.constraints.map ConstraintV2.schema = c.constraints.map id :=
    List.map_congr_left h.schema
  rw [DelegationCertV2.normal, hmap, List.map_id]

theorem mem_array {o : Obj} {name : String} {xs : List JNode} (h : o.array name = .ok xs) :
    xs = [] ∨ ∃ f ∈ o, f.2.v = .arr xs := by
  unfold Obj.array at h
  split at h
  · cases h
    exact .inl rfl
  · rename_i n hn
    obtain ⟨f, hf, rfl⟩ := mem_of_present hn
    split at h
    · rename_i ys hys
      cases h
      exact .inr ⟨f, hf, hys⟩
    · cases h

/-- What is read of a parsed certificate is in normal form. -/
theorem certNormal_of_certFromNode (hn : Parsed (levels + 3) n) (h : certFromNode n = .ok c) :
    CertNormal levels c := by
  unfold certFromNode at h
  obtain ⟨o, ho, h⟩ := bind_eq_ok_iff.mp h
  obtain ⟨_, -, h⟩ := bind_eq_ok_iff.mp h
  obtain ⟨raw, hraw, h⟩ := bind_eq_ok_iff.mp h
  obtain ⟨constraints, hconstraints, h⟩ := bind_eq_ok_iff.mp h
  simp only [bind_eq_ok_iff, Except.ok.injEq] at h
  obtain ⟨_, -, _, -, _, -, _, -, _, -, _, -, _, -, _, -, _, -, _, -, rfl⟩ := h
  have hfrom : ∀ k ∈ constraints, ∃ m ∈ raw, ConstraintV2.fromNode m = .ok k := by
    intro k hk
    obtain ⟨m, hm, hread⟩ := forall₂_left (mapM_eq_ok_iff.mp hconstraints).flip k hk
    exact ⟨m, hm, hread⟩
  have hparsed : ∀ m ∈ raw, Parsed (levels + 1) m := by
    rcases mem_array hraw with rfl | ⟨f, hf, hv⟩
    · exact fun m hm => absurd hm List.not_mem_nil
    · exact parsed_items (parsed_members hn ho f hf) hv
  constructor
  · intro k hk
    obtain ⟨m, -, hread⟩ := hfrom k hk
    exact schema_of_fromNode hread
  · intro k hk
    obtain ⟨m, hm, hread⟩ := hfrom k hk
    exact nests_of_fromNode (hparsed m hm) hread

theorem parsed_of_parseWire {b : Bytes} {topByte topText : List String} {n : JNode}
    (h : parseWire b topByte topText = .ok n) : Parsed maxJsonNestingDepth n := by
  obtain ⟨root, hroot, h⟩ := bind_eq_ok_iff.mp h
  obtain ⟨_, -, h⟩ := bind_eq_ok_iff.mp h
  obtain ⟨_, -, h⟩ := bind_eq_ok_iff.mp h
  obtain rfl := Except.ok.inj h
  exact parsed_of_parseJson hroot

/-- A decoded certificate validates, in normal form and with full signature components. -/
theorem decodeDelegationCertV2_sound {b : Bytes} (h : decodeDelegationCertV2 P b = .ok c) :
    b.length ≤ maxDelegationCertBytesV2 ∧ CertValid P c ∧ SignatureLengths c.signature
      ∧ CertNormal 13 c := by
  rw [decodeDelegationCertV2, classify_eq_ok_iff] at h
  obtain ⟨hsize, h⟩ := refuseIf_bind_eq_ok_iff.mp h
  obtain ⟨root, hroot, h⟩ := bind_eq_ok_iff.mp h
  obtain ⟨_, -, h⟩ := bind_eq_ok_iff.mp h
  obtain ⟨cert, hcert, h⟩ := bind_eq_ok_iff.mp h
  obtain ⟨_, hvalid, h⟩ := bind_eq_ok_iff.mp h
  obtain ⟨_, hsig, h⟩ := bind_eq_ok_iff.mp h
  obtain rfl := Except.ok.inj h
  exact ⟨by simpa using hsize, validateDelegationCertV2_eq_ok_iff.mp hvalid,
    validateSignatureLengths_eq_ok_iff.mp hsig,
    certNormal_of_certFromNode (parsed_of_parseWire hroot) hcert⟩

/-- Canonical text within the size limit decodes to the certificate. -/
theorem decodeDelegationCertV2_canonical (hc : CertValid P c) (hsig : SignatureLengths c.signature)
    (hnormal : CertNormal 13 c) {b : Bytes} (hb : canonical (.obj (certMembers c true)) = .ok b)
    (hlen : b.length ≤ maxDelegationCertBytesV2) : decodeDelegationCertV2 P b = .ok c := by
  have hbody : WireBody maxJsonNestingDepth (.obj (certMembers c true)) :=
    wireBody_cert hc hnormal.nests true
  have htop : TopBytes [] 0 (.obj (certMembers c true)) :=
    fun _ _ _ _ _ h => absurd h List.not_mem_nil
  obtain ⟨root, hroot, hd⟩ := hbody.parseWire_ok htop hb
  have hcert := certFromNode_of_denotes hc.constraints hbody.fits (Nat.le_refl _) hbody.exists_write hd
  rw [hnormal.normal_eq] at hcert
  have hprecheck := precheck_of_denotes hc hbody.fits (Nat.le_refl _) hd
  have hsize : checkV2WireSize b "certificate" "MAX_DELEGATION_CERT_BYTES_V2"
      maxDelegationCertBytesV2 = .ok () := by
    simp [checkV2WireSize, hlen]
  simp only [decodeDelegationCertV2, classify_eq_ok_iff, hsize, hroot, hprecheck, hcert, ok_bind,
    validateDelegationCertV2_eq_ok_iff.mpr hc, validateSignatureLengths_eq_ok_iff.mpr hsig]

/-! ## Bundles -/

/-- A bundle that passes the checks of its decoder. -/
structure BundleValid (P : Primitives) (b : ProofBundleV2) : Prop where
  version : b.version = 2
  verifier : validV2Id b.verifierId = true
  agent : validV2Id b.agentId = true
  chain : b.delegations.length ≤ maxDelegationChainDepth
  challenge : b.challenge.length = 32
  challengeAt : 0 ≤ b.challengeAt ∧ b.challengeAt ≤ v2MaxTimestampSeconds
  digest : b.delegationDigest.length = 48
  session : ∀ s, b.sessionContext = some s → s.length = 32
  streamBoth : b.streamId.isSome = b.streamSeq.isSome
  stream : streamBindingRefused b.streamId b.streamSeq = false
  lengths : SignatureLengths b.challengeSig
  certs : ∀ c ∈ b.delegations, CertValid P c ∧ SignatureLengths c.signature

theorem validateDecodedBundle_eq_ok_iff {b : ProofBundleV2} :
    validateDecodedBundle P b = .ok () ↔ BundleValid P b := by
  have hcert : ∀ c, (do
      validateDelegationCertV2 P c
      validateSignatureLengths c.signature) = .ok () ↔
        CertValid P c ∧ SignatureLengths c.signature := by
    intro c
    rw [bind_eq_ok_iff]
    constructor
    · rintro ⟨_, hc, hs⟩
      exact ⟨validateDelegationCertV2_eq_ok_iff.mp hc, validateSignatureLengths_eq_ok_iff.mp hs⟩
    · rintro ⟨hc, hs⟩
      exact ⟨(), validateDelegationCertV2_eq_ok_iff.mpr hc,
        validateSignatureLengths_eq_ok_iff.mpr hs⟩
  have hsession : (b.sessionContext.any fun s => decide (s.length ≠ 32)) = false ↔
      ∀ s, b.sessionContext = some s → s.length = 32 := by
    cases b.sessionContext <;> simp
  unfold validateDecodedBundle
  simp only [refuseIf_bind_eq_ok_iff, bind_eq_ok_iff (x := validateSignatureLengths _),
    checkEach_eq_ok_iff, hcert, hsession, bne_eq_false_iff_eq, Bool.or_eq_false_iff,
    Bool.not_eq_false', validV2Timestamp_iff, decide_eq_false_iff_not, not_lt, gt_iff_lt, ne_eq,
    not_not]
  constructor
  · rintro ⟨h₁, ⟨h₂, h₃⟩, h₄, h₅, h₆, h₇, h₈, h₉, h₁₀, _, h₁₁, h₁₂⟩
    exact ⟨h₁, h₂, h₃, h₄, h₅, h₆, h₇, h₈, h₉, h₁₀,
      validateSignatureLengths_eq_ok_iff.mp h₁₁, h₁₂⟩
  · intro h
    exact ⟨h.version, ⟨h.verifier, h.agent⟩, h.chain, h.challenge, h.challengeAt, h.digest,
      h.session, h.streamBoth, h.stream, (), validateSignatureLengths_eq_ok_iff.mpr h.lengths,
      h.certs⟩

/-- The members of a bundle. -/
def bundleMembers (b : ProofBundleV2) : List (String × CJ) :=
  bundleBody b (b.delegations.map fun c => .obj (certMembers c true))

theorem certsCj_eq_ok_iff {cs : List DelegationCertV2} {vs : List CJ} :
    (cs.mapM fun c => certCj c true) = .ok vs ↔
      vs = cs.map (fun c => .obj (certMembers c true))
        ∧ ∀ c ∈ cs, ∀ k ∈ c.constraints, ∃ w, k.toCj = .ok w := by
  rw [mapM_eq_ok_iff]
  induction cs generalizing vs with
  | nil => simp
  | cons c cs ih =>
    constructor
    · intro h
      cases h with
      | cons hc hcs =>
        obtain ⟨rfl, hall⟩ := ih.mp hcs
        obtain ⟨rfl, hone⟩ := certCj_eq_ok_iff.mp hc
        exact ⟨rfl, List.forall_mem_cons.mpr ⟨hone, hall⟩⟩
    · rintro ⟨rfl, hall⟩
      obtain ⟨hone, hrest⟩ := List.forall_mem_cons.mp hall
      exact .cons (certCj_eq_ok_iff.mpr ⟨rfl, hone⟩) (ih.mpr ⟨rfl, hrest⟩)

theorem bundleCj_eq_ok_iff {b : ProofBundleV2} {v : CJ} :
    bundleCj b = .ok v ↔ v = .obj (bundleMembers b)
      ∧ ∀ c ∈ b.delegations, ∀ k ∈ c.constraints, ∃ w, k.toCj = .ok w := by
  simp only [bundleCj, bind_eq_ok_iff, certsCj_eq_ok_iff, Except.ok.injEq]
  constructor
  · rintro ⟨_, ⟨rfl, hall⟩, rfl⟩
    exact ⟨rfl, hall⟩
  · rintro ⟨rfl, hall⟩
    exact ⟨_, ⟨rfl, hall⟩, rfl⟩

theorem nodup_bundleMembers (b : ProofBundleV2) : ((bundleMembers b).map Prod.fst).Nodup := by
  simp [bundleMembers, bundleBody, presentationBody]

/-- The bundle with its certificates in normal form. -/
def ProofBundleV2.normal (b : ProofBundleV2) : ProofBundleV2 :=
  { b with delegations := b.delegations.map DelegationCertV2.normal }

/-- A bundle of certificates in normal form, its stream sequence safe. -/
structure BundleNormal (levels : Nat) (b : ProofBundleV2) : Prop where
  certs : ∀ c ∈ b.delegations, CertNormal levels c
  streamSeq : ∀ s, b.streamSeq = some s → s ≤ maxSafe

theorem BundleNormal.normal_eq {levels : Nat} {b : ProofBundleV2} (h : BundleNormal levels b) :
    b.normal = b := by
  have hmap : b.delegations.map DelegationCertV2.normal = b.delegations.map id :=
    List.map_congr_left fun c hc => (h.certs c hc).normal_eq
  rw [ProofBundleV2.normal, hmap, List.map_id]

theorem BundleValid.stream_pos {b : ProofBundleV2} (h : BundleValid P b) {s : Int}
    (hs : b.streamSeq = some s) : 0 < s := by
  have hboth := h.streamBoth
  rw [hs, Option.isSome_some, Option.isSome_iff_exists] at hboth
  obtain ⟨id, hid⟩ := hboth
  have hstream := h.stream
  rw [hid, hs] at hstream
  simp only [streamBindingRefused, decide_eq_false_iff_not, not_or, not_le] at hstream
  exact hstream.2

/-- The value of a validated bundle is a wire body. -/
theorem wireBody_bundle {levels : Nat} {b : ProofBundleV2} (hb : BundleValid P b)
    (hseq : ∀ s, b.streamSeq = some s → s ≤ maxSafe)
    (hnests : ∀ c ∈ b.delegations, ∀ k ∈ c.constraints, k.Nests levels) :
    WireBody (levels + 5) (.obj (bundleMembers b)) := by
  have hcerts : WireBody (levels + 4)
      (.arr (b.delegations.map fun c => .obj (certMembers c true))) := by
    refine .arr (levels + 3) _ fun v hv => ?_
    obtain ⟨c, hc, rfl⟩ := List.mem_map.mp hv
    exact wireBody_cert (hb.certs c hc).1 (hnests c hc) true
  have hbytes : ∀ v : Option Bytes, optBytesCj v ≠ .null → WireBody (levels + 4) (optBytesCj v) := by
    intro v hv
    cases v with
    | none => exact absurd rfl hv
    | some s => exact .bytes _ _
  have hstream : b.streamSeq.elim .null .int ≠ CJ.null →
      WireBody (levels + 4) (b.streamSeq.elim .null .int) := by
    intro hv
    cases hs : b.streamSeq with
    | none =>
      rw [hs] at hv
      exact absurd rfl hv
    | some s => exact .int _ _ (safe_sequence (hb.stream_pos hs) (hseq s hs))
  refine .obj _ _ (nodup_bundleMembers b) ?_ ?_ ?_ ?_
  · have hopt : ∀ v : Option Bytes, (∃ s, optBytesCj v = .bytes s) ∨ optBytesCj v = .null := by
      intro v
      cases v with
      | none => exact .inr rfl
      | some s => exact .inl ⟨s, rfl⟩
    simp [bundleMembers, bundleBody, presentationBody, wireByteFields, hopt]
  · simp [bundleMembers, bundleBody, presentationBody]
  · simp [bundleMembers, bundleBody, presentationBody, nullableMembers, CJ.key, CJ.sig]
  · simp only [bundleMembers, bundleBody, presentationBody, List.cons_append, List.nil_append,
      List.forall_mem_cons]
    exact ⟨fun _ _ => .str _ _, fun _ _ => (wireValue_key _ _).body, fun _ _ => .bytes _ _,
      fun _ _ => .int _ _ (safe_timestamp hb.challengeAt), fun _ _ => .bytes _ _,
      fun _ hv => hbytes _ hv, fun _ hv => hbytes _ hv, fun _ hv => hstream hv,
      fun _ _ => .str _ _, fun _ _ => .int _ _ (safe_version hb.version),
      fun _ _ => (wireValue_sig _ _).body, fun _ _ => hcerts, by simp⟩

/-! ## Reading a bundle back -/

section Views

variable {fields : List (String × CJ)} {o : Obj}

theorem ObjView.optBytes_ok (h : ObjView fields o) {k : String} {value : Option Bytes}
    (hk : (k, optBytesCj value) ∈ fields) : o.optBytes k = .ok value := by
  cases value with
  | none =>
    obtain ⟨m, hm, hd⟩ := h.get k .null hk
    cases hd
    rw [Obj.optBytes, Obj.present, hm]
    rfl
  | some s =>
    obtain ⟨m, hm, hd⟩ := h.present (v := .bytes s) hk (by simp)
    cases hd
    simp [Obj.optBytes, hm, asStr, JNode.v, b64Decode_encodeChars]

theorem ObjView.optI64_ok (h : ObjView fields o) {k : String} {value : Option Int}
    (hk : (k, value.elim .null .int) ∈ fields)
    (hsafe : ∀ n, value = some n → -maxSafe ≤ n ∧ n ≤ maxSafe) : o.optI64 k = .ok value := by
  cases value with
  | none =>
    obtain ⟨m, hm, hd⟩ := h.get k .null hk
    cases hd
    rw [Obj.optI64, Obj.present, hm]
    rfl
  | some n =>
    obtain ⟨m, hm, hd⟩ := h.present (v := .int n) hk (by simp)
    cases hd
    simp [Obj.optI64, hm, asI64, JNode.v, String.toList_ofList, not_any_float_encodeInt,
      parseI64_encodeInt (hsafe n rfl)]

end Views

theorem bundleFromObj_of_view {b : ProofBundleV2} {o : Obj} (hview : ObjView (bundleMembers b) o)
    (hwrite : ∃ t, write (.obj (bundleMembers b)) = .ok t) (delegations : List DelegationCertV2) :
    bundleFromObj o delegations = .ok { b with delegations } := by
  have hwrites := exists_write_of_obj hwrite
  have hint : ∀ {k : String} {i : Int}, (k, .int i) ∈ bundleMembers b → o.i64 k = .ok i :=
    fun hmem => hview.i64_ok hmem (safe_of_write (hwrites _ hmem))
  have hversion : o.i64 "version" = .ok b.version :=
    hint (by simp [bundleMembers, bundleBody, presentationBody])
  have hverifier : o.str "verifier_id" = .ok b.verifierId :=
    hview.str_ok (by simp [bundleMembers, bundleBody, presentationBody])
  have hagent : o.str "agent_id" = .ok b.agentId :=
    hview.str_ok (by simp [bundleMembers, bundleBody, presentationBody])
  have hkey : o.pubKey "agent_pub_key" = .ok b.agentPubKey :=
    hview.pubKey_ok (by simp [bundleMembers, bundleBody, presentationBody])
  have hdigest : o.bytes "delegation_digest" = .ok b.delegationDigest :=
    hview.bytes_ok (by simp [bundleMembers, bundleBody, presentationBody])
  have hchallenge : o.bytes "challenge" = .ok b.challenge :=
    hview.bytes_ok (by simp [bundleMembers, bundleBody, presentationBody])
  have hat : o.i64 "challenge_at" = .ok b.challengeAt :=
    hint (by simp [bundleMembers, bundleBody, presentationBody])
  have hsig : o.sig "challenge_sig" = .ok b.challengeSig :=
    hview.sig_ok (by simp [bundleMembers, bundleBody, presentationBody])
  have hsession : o.optBytes "session_context" = .ok b.sessionContext :=
    hview.optBytes_ok (by simp [bundleMembers, bundleBody, presentationBody])
  have hstream : o.optBytes "stream_id" = .ok b.streamId :=
    hview.optBytes_ok (by simp [bundleMembers, bundleBody, presentationBody])
  have hmem : ("stream_seq", b.streamSeq.elim .null .int) ∈ bundleMembers b := by
    simp [bundleMembers, bundleBody, presentationBody]
  have hseq : o.optI64 "stream_seq" = .ok b.streamSeq := by
    refine hview.optI64_ok hmem fun n hn => safe_of_write ?_
    have h := hwrites _ hmem
    rwa [hn] at h
  simp only [bundleFromObj, hversion, hverifier, hagent, hkey, hdigest, hchallenge, hat, hsig,
    hsession, hstream, hseq, ok_bind]

/-- The certificates of a bundle fit two levels below it. -/
theorem fits_delegation {levels : Nat} {b : ProofBundleV2}
    (hfits : Fits (levels + 2) (.obj (bundleMembers b))) {c : DelegationCertV2}
    (hc : c ∈ b.delegations) : Fits levels (.obj (certMembers c true)) := by
  cases hfits with
  | obj _ _ _ hvalues =>
    have harr := hvalues
      ("delegations", .arr (b.delegations.map fun c => .obj (certMembers c true)))
      (by simp [bundleMembers, bundleBody])
    cases harr with
    | arr _ _ hitems => exact hitems _ (List.mem_map_of_mem hc)

/-- The array of certificates, read in normal form. -/
theorem delegations_of_view {levels : Nat} {b : ProofBundleV2} {o : Obj}
    (hview : ObjView (bundleMembers b) o)
    (hcs : ∀ c ∈ b.delegations, ∀ k ∈ c.constraints, ∃ w, k.toCj = .ok w)
    (hfits : Fits (levels + 2) (.obj (bundleMembers b))) (hle : levels ≤ maxJsonNestingDepth)
    (hwrite : ∃ t, write (.obj (bundleMembers b)) = .ok t) :
    ∃ raw, requireArray o "delegations" = .ok raw
      ∧ List.Forall₂ Denotes (b.delegations.map fun c => .obj (certMembers c true)) raw
      ∧ raw.mapM certFromNode = .ok (b.delegations.map DelegationCertV2.normal) := by
  have hmem : ("delegations", .arr (b.delegations.map fun c => .obj (certMembers c true)))
      ∈ bundleMembers b := by simp [bundleMembers, bundleBody]
  obtain ⟨m, hm, hd⟩ := hview.get _ _ hmem
  have hwrites := exists_write_of_arr (exists_write_of_obj hwrite _ hmem)
  cases hd with
  | arr _ raw i j hden =>
    refine ⟨raw, by simp only [requireArray, hm, Option.map_some, JNode.v], hden, ?_⟩
    refine mapM_reads (fun c hc n hn => ?_) hden
    exact certFromNode_of_denotes (hcs c hc) (fits_delegation hfits hc) hle
      (hwrites _ (List.mem_map_of_mem hc)) hn

theorem require_bundle {b : ProofBundleV2} {o : Obj} (hview : ObjView (bundleMembers b) o) :
    o.require bundleFields ["session_context", "stream_id", "stream_seq"] = .ok () :=
  hview.require_nullable_ok _ _ (by simp [bundleMembers, bundleBody, presentationBody, bundleFields])
    (by simp [bundleMembers, bundleBody, presentationBody, CJ.key, CJ.sig])

theorem only_bundle {b : ProofBundleV2} {o : Obj} (hview : ObjView (bundleMembers b) o) :
    o.only bundleFields = .ok () :=
  hview.only_ok _ (by simp [bundleMembers, bundleBody, presentationBody, bundleFields])

theorem topBytes_bundle (b : ProofBundleV2) :
    TopBytes ["delegation_digest"] 0 (.obj (bundleMembers b)) := by
  rintro - fields hfields f hf hname
  obtain rfl := CJ.obj.inj hfields
  have hdigest : ∀ g ∈ bundleMembers b, g.1 = "delegation_digest" → ∃ s, g.2 = .bytes s := by
    simp [bundleMembers, bundleBody, presentationBody]
  exact .inl (hdigest f hf (List.mem_singleton.mp hname))

theorem certsPrechecked {levels : Nat} {b : ProofBundleV2} (hb : BundleValid P b)
    (hfits : Fits (levels + 2) (.obj (bundleMembers b))) (hle : levels ≤ maxJsonNestingDepth)
    {raw : List JNode}
    (hden : List.Forall₂ Denotes (b.delegations.map fun c => .obj (certMembers c true)) raw) :
    checkEach "wire v2 delegation" precheckCertNode 0 raw = .ok () := by
  rw [checkEach_eq_ok_iff]
  intro x hx
  obtain ⟨v, hv, hd⟩ := forall₂_left hden.flip x hx
  obtain ⟨c, hc, rfl⟩ := List.mem_map.mp hv
  exact precheck_of_denotes (hb.certs c hc).1 (fits_delegation hfits hc) hle hd

/-! ## Decoded bundles -/

theorem present_of_optI64 {o : Obj} {k : String} {s : Int} (h : o.optI64 k = .ok (some s)) :
    ∃ n, o.present k = some n ∧ asI64 n = .ok s := by
  unfold Obj.optI64 at h
  split at h
  · cases h
  · rename_i n hn
    simp only [bind_eq_ok_iff, Except.ok.injEq, Option.some.injEq] at h
    obtain ⟨i, hi, rfl⟩ := h
    exact ⟨n, hn, hi⟩

/-- An integer of a parsed document is safe. -/
theorem safe_of_asI64 {levels : Nat} {n : JNode} (hn : Parsed levels n) {i : Int}
    (h : asI64 n = .ok i) : -maxSafe ≤ i ∧ i ≤ maxSafe := by
  cases hn with
  | int _ k _ _ hrange =>
    simp only [asI64, JNode.v, String.toList_ofList, not_any_float_encodeInt,
      parseI64_encodeInt hrange, Bool.false_eq_true, ↓reduceIte, Except.ok.injEq] at h
    exact h ▸ hrange
  | _ => cases h

theorem requireArray_eq_ok {o : Obj} {name : String} {xs : List JNode}
    (h : requireArray o name = .ok xs) : ∃ f ∈ o, f.2.v = .arr xs := by
  unfold requireArray at h
  split at h
  · rename_i items hitems
    obtain ⟨n, hn, hv⟩ := Option.map_eq_some_iff.mp hitems
    obtain ⟨f, hf, rfl⟩ := mem_of_get hn
    cases h
    exact ⟨f, hf, hv⟩
  · cases h

/-- A decoded bundle validates and is in normal form. -/
theorem decodeProofBundleV2_sound {t : Bytes} {b : ProofBundleV2}
    (h : decodeProofBundleV2 P t = .ok b) :
    t.length ≤ maxProofBundleBytesV2 ∧ BundleValid P b ∧ BundleNormal 11 b := by
  rw [decodeProofBundleV2, classify_eq_ok_iff] at h
  obtain ⟨hsize, h⟩ := refuseIf_bind_eq_ok_iff.mp h
  obtain ⟨root, hroot, h⟩ := bind_eq_ok_iff.mp h
  obtain ⟨o, ho, h⟩ := bind_eq_ok_iff.mp h
  obtain ⟨_, -, h⟩ := bind_eq_ok_iff.mp h
  obtain ⟨raw, hraw, h⟩ := bind_eq_ok_iff.mp h
  obtain ⟨_, -, h⟩ := bind_eq_ok_iff.mp h
  obtain ⟨_, -, h⟩ := bind_eq_ok_iff.mp h
  obtain ⟨delegations, hdelegations, h⟩ := bind_eq_ok_iff.mp h
  obtain ⟨bundle, hbundle, h⟩ := bind_eq_ok_iff.mp h
  obtain ⟨_, hvalid, h⟩ := bind_eq_ok_iff.mp h
  obtain rfl := Except.ok.inj h
  have hparsed : Parsed (15 + 1) root := parsed_of_parseWire hroot
  have hmembers := parsed_members hparsed ho
  refine ⟨by simpa using hsize, validateDecodedBundle_eq_ok_iff.mp hvalid, ?_⟩
  unfold bundleFromObj at hbundle
  simp only [bind_eq_ok_iff, Except.ok.injEq] at hbundle
  obtain ⟨_, -, _, -, _, -, _, -, _, -, _, -, _, -, _, -, _, -, _, -, streamSeq, hseq, rfl⟩ := hbundle
  constructor
  · intro c hc
    obtain ⟨m, hm, hread⟩ := forall₂_left (mapM_eq_ok_iff.mp hdelegations).flip c hc
    obtain ⟨f, hf, hv⟩ := requireArray_eq_ok hraw
    exact certNormal_of_certFromNode (parsed_items (hmembers f hf) hv m hm) hread
  · intro s hs
    simp only at hs
    rw [hs] at hseq
    obtain ⟨n, hn, hi⟩ := present_of_optI64 hseq
    obtain ⟨f, hf, rfl⟩ := mem_of_present hn
    exact (safe_of_asI64 (hmembers f hf) hi).2

/-- Canonical text within the size limit decodes to the bundle in normal form. -/
theorem decodeProofBundleV2_canonical {b : ProofBundleV2} (hb : BundleValid P b)
    (hseq : ∀ s, b.streamSeq = some s → s ≤ maxSafe)
    (hnests : ∀ c ∈ b.delegations, ∀ k ∈ c.constraints, k.Nests 11)
    (hnormal : BundleValid P b.normal) {t : Bytes}
    (ht : canonical (.obj (bundleMembers b)) = .ok t) (hlen : t.length ≤ maxProofBundleBytesV2) :
    decodeProofBundleV2 P t = .ok b.normal := by
  have hbody : WireBody maxJsonNestingDepth (.obj (bundleMembers b)) :=
    wireBody_bundle hb hseq hnests
  have hcs : ∀ c ∈ b.delegations, ∀ k ∈ c.constraints, ∃ w, k.toCj = .ok w :=
    fun c hc => (hb.certs c hc).1.constraints
  obtain ⟨root, hroot, hd⟩ := hbody.parseWire_ok (topBytes_bundle b) ht
  obtain ⟨o, ho, hview⟩ := objView_of_denotes hd (nodup_bundleMembers b)
  have hfits : Fits (14 + 2) (.obj (bundleMembers b)) := hbody.fits
  have hle : 14 ≤ maxJsonNestingDepth := by decide
  obtain ⟨raw, hraw, hden, hcerts⟩ := delegations_of_view hview hcs hfits hle hbody.exists_write
  have hprecheck := certsPrechecked hb hfits hle hden
  have hread := bundleFromObj_of_view hview hbody.exists_write
    (b.delegations.map DelegationCertV2.normal)
  have hsize : checkV2WireSize t "proof bundle" "MAX_PROOF_BUNDLE_BYTES_V2" maxProofBundleBytesV2
      = .ok () := by
    simp [checkV2WireSize, hlen]
  have hvalid : validateDecodedBundle P
      { b with delegations := b.delegations.map DelegationCertV2.normal } = .ok () :=
    validateDecodedBundle_eq_ok_iff.mpr hnormal
  simp only [decodeProofBundleV2, classify_eq_ok_iff, hsize, hroot, ho, require_bundle hview, hraw,
    hprecheck, only_bundle hview, hcerts, hread, hvalid, ok_bind]
  rfl

end RatifyProtocol.V2
