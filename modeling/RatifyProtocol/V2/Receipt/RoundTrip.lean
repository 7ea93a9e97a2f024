import RatifyProtocol.V2.Receipt.Codec
import RatifyProtocol.V2.WireSize
set_option autoImplicit false

/-!
# Receipts: writing and reading are inverse

What `validate_receipt` leaves of a receipt makes each of its three shapes a
wire document, and reading a canonical shape returns the receipt as far as the
shape carries it.  A prepared body therefore decodes to the receipt it was
prepared from, without its log position.
-/

namespace RatifyProtocol.V2

open Foundation

/-! ## What validation leaves -/

/-- A status evidence entry that can be written and read back. -/
structure EvidenceNumbers (e : StatusEvidenceEntryV2) : Prop where
  sequence_pos : 0 < e.sequence
  sequence_le : e.sequence ≤ maxSafe
  objectType : e.objectType = 3 ∨ e.objectType = 5

theorem evidenceNumbers_of_entryOk {issuerIds : List String} {verifierId agentId : String}
    {prior : List StatusEvidenceEntryV2} {e : StatusEvidenceEntryV2}
    (h : evidenceEntryOk issuerIds verifierId agentId prior e = true) : EvidenceNumbers e := by
  simp only [evidenceEntryOk, Bool.and_eq_true, Bool.or_eq_true, decide_eq_true_eq,
    beq_iff_eq] at h
  exact { sequence_pos := h.1.1.1.2, sequence_le := h.1.1.2, objectType := h.1.2 }

theorem evidenceNumbers_of_entriesOk {issuerIds : List String} {verifierId agentId : String}
    {prior values : List StatusEvidenceEntryV2}
    (h : evidenceEntriesOk issuerIds verifierId agentId prior values = true) :
    ∀ e ∈ values, EvidenceNumbers e := by
  induction values generalizing prior with
  | nil => simp
  | cons v values ih =>
    simp only [evidenceEntriesOk, Bool.and_eq_true] at h
    intro e he
    rcases List.mem_cons.mp he with rfl | he
    · exact evidenceNumbers_of_entryOk h.1
    · exact ih h.2 e he

/-- The checks of a receipt that do not read its log position. -/
structure BodyValid (r : VerificationReceiptV2) : Prop where
  version : r.version = 2
  verifiedAt : 0 ≤ r.verifiedAt ∧ r.verifiedAt ≤ v2MaxTimestampSeconds
  verifierId : validV2Id r.verifierId = true
  agentId : r.agentId = "" ∨ validV2Id r.agentId = true
  bundleHash : validPrefixedDigest r.bundleHash = true
  issuers : validateReceiptIssuers r = .ok ()
  assessments : validateReceiptAssessments r = .ok ()

/-- The checks of a receipt's log position. -/
structure PositionValid (r : VerificationReceiptV2) : Prop where
  logId : (utf8 r.logId).length = 32
  hex : lowerHex r.logId = true
  sequence_pos : 0 < r.sequence
  sequence_le : r.sequence ≤ maxSafe
  previous : r.previousReceiptHash.length = 48
  link : (r.sequence == 1 && !r.previousReceiptHash.all (· == 0)
    || decide (r.sequence > 1) && r.previousReceiptHash.all (· == 0)) = false

theorem validateReceipt_eq_ok_iff {r : VerificationReceiptV2} {signature : Bool} {u : Unit} :
    validateReceipt r signature = .ok u ↔
      PositionValid r ∧ BodyValid r ∧ (signature = true → SignatureLengths r.signature) := by
  have hsplit : validateReceipt r signature = .ok () ↔
      (r.version != 2 || (utf8 r.logId).length != 32 || !lowerHex r.logId
        || decide (r.sequence ≤ 0) || decide (r.sequence > maxSafe)
        || !validV2Timestamp r.verifiedAt) = false
      ∧ (!validV2Id r.verifierId || (r.agentId != "" && !validV2Id r.agentId)) = false
      ∧ (!validPrefixedDigest r.bundleHash || r.previousReceiptHash.length != 48) = false
      ∧ validateReceiptIssuers r = .ok ()
      ∧ (r.sequence == 1 && !r.previousReceiptHash.all (· == 0)
        || decide (r.sequence > 1) && r.previousReceiptHash.all (· == 0)) = false
      ∧ validateReceiptAssessments r = .ok ()
      ∧ (signature && (r.signature.ed25519.length != 64
        || r.signature.mlDsa65.length != 3309)) = false := by
    unfold validateReceipt
    simp only [refuseIf_bind_eq_ok_iff, bind_eq_ok_iff (x := validateReceiptIssuers r),
      bind_eq_ok_iff (x := validateReceiptAssessments r), refuseIf_eq_ok_iff]
    constructor
    · rintro ⟨h₁, h₂, h₃, _, h₄, h₅, _, h₆, h₇⟩
      exact ⟨h₁, h₂, h₃, h₄, h₅, h₆, h₇⟩
    · rintro ⟨h₁, h₂, h₃, h₄, h₅, h₆, h₇⟩
      exact ⟨h₁, h₂, h₃, (), h₄, h₅, (), h₆, h₇⟩
  have hlengths : (signature && (r.signature.ed25519.length != 64
      || r.signature.mlDsa65.length != 3309)) = false
        ↔ (signature = true → SignatureLengths r.signature) := by
    cases signature <;> simp [SignatureLengths]
  rw [hsplit, hlengths]
  simp only [Bool.or_eq_false_iff (y := !validV2Timestamp r.verifiedAt),
    Bool.or_eq_false_iff (y := decide (r.sequence > maxSafe)),
    Bool.or_eq_false_iff (y := decide (r.sequence ≤ 0)),
    Bool.or_eq_false_iff (y := !lowerHex r.logId),
    Bool.or_eq_false_iff (x := r.version != 2), Bool.or_eq_false_iff (x := !validV2Id r.verifierId),
    Bool.or_eq_false_iff (x := !validPrefixedDigest r.bundleHash), bne_eq_false_iff_eq,
    Bool.not_eq_false', decide_eq_false_iff_not, not_le, not_lt, validV2Timestamp_iff]
  have hagent : (r.agentId != "" && !validV2Id r.agentId) = false
      ↔ r.agentId = "" ∨ validV2Id r.agentId = true := by
    simp [or_iff_not_imp_left]
  rw [hagent]
  constructor
  · rintro ⟨⟨⟨⟨⟨⟨h₁, h₂⟩, h₃⟩, h₄⟩, h₅⟩, h₆⟩, ⟨h₇, h₈⟩, ⟨h₉, h₁₀⟩, h₁₁, h₁₂, h₁₃, h₁₄⟩
    exact ⟨⟨h₂, h₃, h₄, h₅, h₁₀, h₁₂⟩, ⟨h₁, h₆, h₇, h₈, h₉, h₁₁, h₁₃⟩, h₁₄⟩
  · rintro ⟨⟨h₂, h₃, h₄, h₅, h₁₀, h₁₂⟩, ⟨h₁, h₆, h₇, h₈, h₉, h₁₁, h₁₃⟩, h₁₄⟩
    exact ⟨⟨⟨⟨⟨⟨h₁, h₂⟩, h₃⟩, h₄⟩, h₅⟩, h₆⟩, ⟨h₇, h₈⟩, ⟨h₉, h₁₀⟩, h₁₁, h₁₂, h₁₃, h₁₄⟩

theorem BodyValid.evidence {r : VerificationReceiptV2} (h : BodyValid r) :
    ∀ e ∈ r.statusEvidence, EvidenceNumbers e := by
  have hassess := h.assessments
  simp only [validateReceiptAssessments, refuseIf_bind_eq_ok_iff, Bool.not_eq_false'] at hassess
  obtain ⟨-, hevidence, -⟩ := hassess
  simp only [sortedEvidence, Bool.and_eq_true] at hevidence
  exact evidenceNumbers_of_entriesOk hevidence.1

/-! ## Shapes are wire documents -/

/-- A receipt as far as a shape carries it. -/
def VerificationReceiptV2.atShape (r : VerificationReceiptV2) : Shape → VerificationReceiptV2
  | .body =>
    { r with logId := "", sequence := 0, previousReceiptHash := [], signature := noSignature }
  | .signable => { r with signature := noSignature }
  | .wire => r

/-- The members of a shape. -/
def receiptShapeMembers (r : VerificationReceiptV2) (shape : Shape) : List (String × CJ) :=
  receiptMembers r ++ receiptOptional r ++ receiptPosition r shape ++ receiptSignature r shape

theorem wireValue_evidenceEntryCj {levels : Nat} {e : StatusEvidenceEntryV2}
    (h : EvidenceNumbers e) : WireValue (levels + 1) (evidenceEntryCj e) := by
  have htype : -maxSafe ≤ (e.objectType : Int) ∧ (e.objectType : Int) ≤ maxSafe := by
    rcases h.objectType with h | h <;> rw [h] <;> simp [maxSafe]
  refine .obj _ _ (by simp) ?_ ?_
  · intro f hf hbyte
    exfalso
    revert hbyte
    simp only [List.mem_cons, List.not_mem_nil, or_false] at hf
    rcases hf with rfl | rfl | rfl | rfl | rfl <;> simp [wireByteFields]
  · simp only [List.forall_mem_cons]
    exact ⟨.str _ _, .str _ _, .int _ _ htype,
      .int _ _ (safe_sequence h.sequence_pos h.sequence_le), .str _ _, by simp⟩

theorem wireValue_evidenceCj {levels : Nat} {values : List StatusEvidenceEntryV2}
    (h : ∀ e ∈ values, EvidenceNumbers e) : WireValue (levels + 2) (evidenceCj values) := by
  refine .arr _ _ fun x hx => ?_
  obtain ⟨e, he, rfl⟩ := List.mem_map.mp hx
  exact wireValue_evidenceEntryCj (h e he)

theorem wireValue_evaluatorRefsCj (levels : Nat) (refs : List ConstraintEvaluatorRefV2) :
    WireValue (levels + 2) (evaluatorRefsCj refs) := by
  refine .arr _ _ fun x hx => ?_
  obtain ⟨e, -, rfl⟩ := List.mem_map.mp hx
  refine .obj _ _ (by simp) ?_ ?_
  · intro f hf hbyte
    exfalso
    revert hbyte
    rcases List.mem_pair.mp hf with rfl | rfl <;> simp [wireByteFields]
  · intro f hf
    rcases List.mem_pair.mp hf with rfl | rfl
    · exact .str _ _
    · exact .str _ _

/-- The keys of a shape, in the order they are listed. -/
theorem receiptShapeMembers_keys (r : VerificationReceiptV2) (shape : Shape) :
    ((receiptShapeMembers r shape).map Prod.fst).Nodup := by
  simp only [receiptShapeMembers, receiptMembers, receiptOptional]
  split <;> split <;> split <;> cases shape <;> simp [receiptPosition, receiptSignature]

/-- Only `previous_receipt_hash` is written as bytes; `bundle_hash` is text. -/
def NamesBytes (f : String × CJ) : Prop :=
  (f.1 ∈ wireByteFields ∧ f.1 ∉ ["bundle_hash"]) ∨ f.1 ∈ ["previous_receipt_hash"]

theorem receiptMembers_names (r : VerificationReceiptV2) :
    ∀ f ∈ receiptMembers r, ¬NamesBytes f := by
  simp [receiptMembers, NamesBytes, wireByteFields]

theorem receiptOptional_names (r : VerificationReceiptV2) :
    ∀ f ∈ receiptOptional r, ¬NamesBytes f := by
  simp only [receiptOptional]
  split <;> split <;> split <;> simp [NamesBytes, wireByteFields]

theorem receiptPosition_names (r : VerificationReceiptV2) (shape : Shape) :
    ∀ f ∈ receiptPosition r shape, NamesBytes f → f.2 = .bytes r.previousReceiptHash := by
  cases shape <;> simp [receiptPosition, NamesBytes, wireByteFields]

theorem receiptSignature_names (r : VerificationReceiptV2) (shape : Shape) :
    ∀ f ∈ receiptSignature r shape, ¬NamesBytes f := by
  cases shape <;> simp [receiptSignature, NamesBytes, wireByteFields]

/-- Every shape of a valid receipt is a wire document. -/
theorem wireDocument_receipt {r : VerificationReceiptV2} (hposition : PositionValid r)
    (hbody : BodyValid r) (shape : Shape) :
    WireDocument ["previous_receipt_hash"] ["bundle_hash"] (receiptShapeMembers r shape) := by
  have hvalues : ∀ f ∈ receiptMembers r, WireValue 15 f.2
      ∨ (f.2 = .null ∧ f.1 ∈ nullableMembers) := by
    have hpolicy : WireValue 15 (r.contextPolicyDigest.elim CJ.null CJ.str)
        ∨ (r.contextPolicyDigest.elim CJ.null CJ.str = .null
          ∧ "context_policy_digest" ∈ nullableMembers) := by
      cases r.contextPolicyDigest with
      | none => exact .inr ⟨rfl, by simp [nullableMembers]⟩
      | some d => exact .inl (.str _ _)
    simp only [receiptMembers, List.forall_mem_cons]
    exact ⟨.inl (.str _ _), .inl (.str _ _), .inl (.str _ _), hpolicy, .inl (.str _ _),
      .inl (.str _ _), .inl (wireValue_strs 14 _), .inl (.str _ _),
      .inl (wireValue_strs 14 _), .inl (.str _ _), .inl (.str _ _),
      .inl (wireValue_evidenceCj hbody.evidence), .inl (.str _ _),
      .inl (.int _ _ (safe_timestamp hbody.verifiedAt)), .inl (.str _ _),
      .inl (.int _ _ (safe_version hbody.version)), by simp⟩
  have hoptional : ∀ f ∈ receiptOptional r, WireValue 15 f.2 := by
    intro f hf
    simp only [receiptOptional, List.mem_append] at hf
    rcases hf with (hf | hf) | hf
    · split at hf
      · exact absurd hf List.not_mem_nil
      · obtain rfl := List.mem_singleton.mp hf
        exact .str _ _
    · split at hf
      · exact absurd hf List.not_mem_nil
      · obtain rfl := List.mem_singleton.mp hf
        exact .str _ _
    · split at hf
      · exact absurd hf List.not_mem_nil
      · obtain rfl := List.mem_singleton.mp hf
        exact wireValue_evaluatorRefsCj 13 _
  have hplace : ∀ f ∈ receiptPosition r shape, WireValue 15 f.2 := by
    have hall : ∀ f ∈ [("log_id", CJ.str r.logId),
        ("previous_receipt_hash", CJ.bytes r.previousReceiptHash),
        ("sequence", CJ.int r.sequence)], WireValue 15 f.2 := by
      simp only [List.forall_mem_cons]
      exact ⟨.str _ _, .bytes _ _,
        .int _ _ (safe_sequence hposition.sequence_pos hposition.sequence_le), by simp⟩
    cases shape with
    | body => simp [receiptPosition]
    | signable => exact hall
    | wire => exact hall
  have hsignature : ∀ f ∈ receiptSignature r shape, WireValue 15 f.2 := by
    intro f hf
    cases shape with
    | body => exact absurd hf List.not_mem_nil
    | signable => exact absurd hf List.not_mem_nil
    | wire =>
      obtain rfl := List.mem_singleton.mp hf
      exact wireValue_sig 14 _
  refine
    { keys := receiptShapeMembers_keys r shape
      values := ?_
      bytes := ?_ }
  · intro f hf
    simp only [receiptShapeMembers, List.mem_append] at hf
    rcases hf with ((hf | hf) | hf) | hf
    · exact hvalues f hf
    · exact .inl (hoptional f hf)
    · exact .inl (hplace f hf)
    · exact .inl (hsignature f hf)
  · intro f hf hnamed
    simp only [receiptShapeMembers, List.mem_append] at hf
    rcases hf with ((hf | hf) | hf) | hf
    · exact absurd hnamed (receiptMembers_names r f hf)
    · exact absurd hnamed (receiptOptional_names r f hf)
    · exact .inl ⟨_, receiptPosition_names r shape f hf hnamed⟩
    · exact absurd hnamed (receiptSignature_names r shape f hf)

/-! ## Reading a shape back -/

/-- Reading the nodes of written values gives the values. -/
theorem mapM_of_denotes {α : Type} {read : JNode → V2Result α} {cj : α → CJ} {values : List α}
    {ns : List JNode} (hread : ∀ a ∈ values, ∀ n, Denotes (cj a) n → read n = .ok a)
    (hns : List.Forall₂ Denotes (values.map cj) ns) : ns.mapM read = .ok values := by
  have h : ns.mapM read = .ok (values.map id) := mapM_reads hread hns
  rwa [List.map_id] at h

theorem evidenceEntryFrom_of_denotes {e : StatusEvidenceEntryV2} (he : EvidenceNumbers e)
    {n : JNode} (h : Denotes (evidenceEntryCj e) n) : evidenceEntryFrom n = .ok e := by
  have hnull := isNull_of_denotes h (by simp [evidenceEntryCj])
  obtain ⟨o, ho, hview⟩ := objView_of_denotes h (by simp)
  have honly : o.only ["digest", "issuer_id", "object_type_code", "sequence", "status_key_id"]
      = .ok () := hview.only_ok _ (by simp)
  have hissuer : o.str "issuer_id" = .ok e.issuerId := hview.str_ok (by simp)
  have hkey : o.str "status_key_id" = .ok e.statusKeyId := hview.str_ok (by simp)
  have hseq : o.i64 "sequence" = .ok e.sequence :=
    hview.i64_ok (by simp) (safe_sequence he.sequence_pos he.sequence_le)
  have htype : o.u16 "object_type_code" = .ok e.objectType := by
    refine hview.u16_ok (by simp) ?_
    rcases he.objectType with h | h <;> omega
  have hdigest : o.str "digest" = .ok e.digest := hview.str_ok (by simp)
  simp only [evidenceEntryFrom, hnull, Bool.false_eq_true, ↓reduceIte, ho, ok_bind, honly,
    hissuer, hkey, hseq, htype, hdigest]

theorem evaluatorFrom_of_denotes {e : ConstraintEvaluatorRefV2} {n : JNode}
    (h : Denotes (.obj [("profile_digest", .str e.profileDigest), ("type", .str e.kind)]) n) :
    evaluatorFrom n = .ok e := by
  obtain ⟨o, ho, hview⟩ := objView_of_denotes h (by simp)
  have honly : o.only ["profile_digest", "type"] = .ok () := hview.only_ok _ (by simp)
  have hkind : o.str "type" = .ok e.kind := hview.str_ok (by simp)
  have hdigest : o.str "profile_digest" = .ok e.profileDigest := hview.str_ok (by simp)
  simp only [evaluatorFrom, ho, ok_bind, honly, hkind, hdigest]

/-- The keys a shape of a receipt can have beside the fixed ones. -/
theorem mem_receiptShapeMembers_keys {r : VerificationReceiptV2} {shape : Shape} {k : String}
    (h : k ∈ (receiptShapeMembers r shape).map Prod.fst) :
    k ∈ (receiptMembers r).map Prod.fst ∨ (k = "agent_id" ∧ r.agentId ≠ "")
      ∨ (k = "human_id" ∧ r.humanId ≠ "")
      ∨ (k = "constraint_evaluators" ∧ r.constraintEvaluators ≠ [])
      ∨ k ∈ (receiptPosition r shape).map Prod.fst
      ∨ k ∈ (receiptSignature r shape).map Prod.fst := by
  simp only [receiptShapeMembers, receiptOptional, List.map_append, List.mem_append] at h
  rcases h with ((h | (h | h) | h) | h) | h
  · exact .inl h
  · split at h
    · exact absurd h List.not_mem_nil
    · exact .inr (.inl ⟨List.mem_singleton.mp h, ‹_›⟩)
  · split at h
    · exact absurd h List.not_mem_nil
    · exact .inr (.inr (.inl ⟨List.mem_singleton.mp h, ‹_›⟩))
  · split at h
    · exact absurd h List.not_mem_nil
    · exact .inr (.inr (.inr (.inl ⟨List.mem_singleton.mp h, ‹_›⟩)))
  · exact .inr (.inr (.inr (.inr (.inl h))))
  · exact .inr (.inr (.inr (.inr (.inr h))))

theorem mem_receiptShapeMembers {r : VerificationReceiptV2} {shape : Shape} {f : String × CJ}
    (h : f ∈ receiptMembers r) : f ∈ receiptShapeMembers r shape := by
  simp only [receiptShapeMembers, List.mem_append]
  exact .inl (.inl (.inl h))

/-- Only the policy digest of a shape can be `null`. -/
theorem receiptShapeMembers_null {r : VerificationReceiptV2} {shape : Shape} {f : String × CJ}
    (hf : f ∈ receiptShapeMembers r shape) (hnull : f.2 = .null) :
    f.1 = "context_policy_digest" := by
  simp only [receiptShapeMembers, List.mem_append] at hf
  rcases hf with ((hf | hf) | hf) | hf
  · revert f
    simp [receiptMembers, CJ.strs, evidenceCj]
  · simp only [receiptOptional, List.mem_append] at hf
    rcases hf with (hf | hf) | hf
    · split at hf <;> simp_all
    · split at hf <;> simp_all
    · split at hf <;> simp_all [evaluatorRefsCj]
  · revert f
    cases shape <;> simp [receiptPosition]
  · revert f
    cases shape <;> simp [receiptSignature, CJ.sig]

/-- Only the wire form carries a signature. -/
theorem receiptShapeMembers_unsigned {r : VerificationReceiptV2} {shape : Shape}
    (hshape : shape ≠ .wire) {k : String}
    (hk : k ∈ ["signature", "old_signature", "new_signature"]) :
    k ∉ (receiptShapeMembers r shape).map Prod.fst := by
  intro hmem
  simp only [List.mem_cons, List.not_mem_nil, or_false] at hk
  rcases mem_receiptShapeMembers_keys hmem with h | ⟨h, -⟩ | ⟨h, -⟩ | ⟨h, -⟩ | h | h
  · rcases hk with rfl | rfl | rfl <;> simp [receiptMembers] at h
  · rcases hk with rfl | rfl | rfl <;> simp at h
  · rcases hk with rfl | rfl | rfl <;> simp at h
  · rcases hk with rfl | rfl | rfl <;> simp at h
  · rcases hk with rfl | rfl | rfl <;> cases shape <;> simp [receiptPosition] at h
  · cases shape with
    | body => exact absurd h List.not_mem_nil
    | signable => exact absurd h List.not_mem_nil
    | wire => exact hshape rfl

/-- The log position and the signature, as far as the shape carries them. -/
theorem receiptPlace_of_view {r : VerificationReceiptV2} {shape : Shape} {o : Obj}
    (h : ObjView (receiptShapeMembers r shape) o) (hposition : PositionValid r) :
    o.str "log_id" = .ok (r.atShape shape).logId
      ∧ o.i64 "sequence" = .ok (r.atShape shape).sequence
      ∧ o.bytes "previous_receipt_hash" = .ok (r.atShape shape).previousReceiptHash
      ∧ o.sig "signature" = .ok (r.atShape shape).signature := by
  have hsafe := safe_sequence hposition.sequence_pos hposition.sequence_le
  have hunsigned : shape ≠ .wire → o.sig "signature" = .ok noSignature := by
    intro hshape
    have hno := @receiptShapeMembers_unsigned r shape hshape "signature" List.mem_cons_self
    simp only [Obj.sig, Obj.pair, h.present_absent hno, ok_bind, noSignature]
  have hplaced : receiptPosition r shape = [("log_id", .str r.logId),
      ("previous_receipt_hash", .bytes r.previousReceiptHash), ("sequence", .int r.sequence)] →
      o.str "log_id" = .ok r.logId ∧ o.i64 "sequence" = .ok r.sequence
        ∧ o.bytes "previous_receipt_hash" = .ok r.previousReceiptHash := by
    intro heq
    refine ⟨h.str_ok ?_, h.i64_ok ?_ hsafe, h.bytes_ok ?_⟩ <;> simp [receiptShapeMembers, heq]
  cases shape with
  | body =>
    have hno : ∀ k ∈ ["log_id", "sequence", "previous_receipt_hash"],
        k ∉ (receiptShapeMembers r .body).map Prod.fst := by
      intro k hk hmem
      simp only [List.mem_cons, List.not_mem_nil, or_false] at hk
      rcases mem_receiptShapeMembers_keys hmem with h | ⟨h, -⟩ | ⟨h, -⟩ | ⟨h, -⟩ | h | h
      · rcases hk with rfl | rfl | rfl <;> simp [receiptMembers] at h
      · rcases hk with rfl | rfl | rfl <;> simp at h
      · rcases hk with rfl | rfl | rfl <;> simp at h
      · rcases hk with rfl | rfl | rfl <;> simp at h
      · exact absurd h List.not_mem_nil
      · exact absurd h List.not_mem_nil
    refine ⟨?_, ?_, ?_, hunsigned (by simp)⟩
    · rw [Obj.str, h.present_absent (hno _ (by simp))]
      rfl
    · rw [Obj.i64, h.present_absent (hno _ (by simp))]
      rfl
    · rw [Obj.bytes, h.present_absent (hno _ (by simp))]
      rfl
  | signable =>
    obtain ⟨hlog, hseq, hprev⟩ := hplaced rfl
    exact ⟨hlog, hseq, hprev, hunsigned (by simp)⟩
  | wire =>
    obtain ⟨hlog, hseq, hprev⟩ := hplaced rfl
    exact ⟨hlog, hseq, hprev, h.sig_ok (by simp [receiptShapeMembers, receiptSignature,
      VerificationReceiptV2.atShape])⟩

theorem evaluatorsFrom_of_view {r : VerificationReceiptV2} {shape : Shape} {o : Obj}
    (h : ObjView (receiptShapeMembers r shape) o) :
    evaluatorsFrom o = .ok r.constraintEvaluators := by
  by_cases hnone : r.constraintEvaluators = []
  · have hno : "constraint_evaluators" ∉ (receiptShapeMembers r shape).map Prod.fst := by
      intro hmem
      rcases mem_receiptShapeMembers_keys hmem with h | ⟨h, -⟩ | ⟨h, -⟩ | ⟨-, h⟩ | h | h
      · simp [receiptMembers] at h
      · simp at h
      · simp at h
      · exact h hnone
      · cases shape <;> simp [receiptPosition] at h
      · cases shape <;> simp [receiptSignature] at h
    rw [evaluatorsFrom, Obj.array, h.present_absent hno, hnone]
    rfl
  · have hmem : ("constraint_evaluators", evaluatorRefsCj r.constraintEvaluators)
        ∈ receiptShapeMembers r shape := by
      simp [receiptShapeMembers, receiptOptional, hnone]
    obtain ⟨ns, hns, hden⟩ := h.array_ok hmem
    rw [evaluatorsFrom, hns, ok_bind]
    exact mapM_of_denotes (fun _ _ _ hd => evaluatorFrom_of_denotes hd) hden

/-- A text member that is written when it is not empty. -/
theorem optionalText_of_view {r : VerificationReceiptV2} {shape : Shape} {o : Obj}
    (h : ObjView (receiptShapeMembers r shape) o) :
    o.str "agent_id" = .ok r.agentId ∧ o.str "human_id" = .ok r.humanId := by
  have hno : ∀ k, k ∉ (receiptMembers r).map Prod.fst →
      k ∉ (receiptPosition r shape).map Prod.fst →
      k ∉ (receiptSignature r shape).map Prod.fst → k ≠ "constraint_evaluators" →
      (k = "agent_id" → r.agentId = "") → (k = "human_id" → r.humanId = "") →
      k ∉ (receiptShapeMembers r shape).map Prod.fst := by
    intro k hmembers hposition hsignature hevaluators hagent hhuman hmem
    rcases mem_receiptShapeMembers_keys hmem with h | ⟨h, hne⟩ | ⟨h, hne⟩ | ⟨h, -⟩ | h | h
    · exact hmembers h
    · exact hne (hagent h)
    · exact hne (hhuman h)
    · exact hevaluators h
    · exact hposition h
    · exact hsignature h
  constructor
  · refine h.str_optional ?_ ?_
    · intro hne
      simp [receiptShapeMembers, receiptOptional, hne]
    · intro hempty
      refine hno _ (by simp [receiptMembers]) ?_ ?_ (by simp) (fun _ => hempty) (by simp)
      · cases shape <;> simp [receiptPosition]
      · cases shape <;> simp [receiptSignature]
  · refine h.str_optional ?_ ?_
    · intro hne
      simp [receiptShapeMembers, receiptOptional, hne]
    · intro hempty
      refine hno _ (by simp [receiptMembers]) ?_ ?_ (by simp) (by simp) (fun _ => hempty)
      · cases shape <;> simp [receiptPosition]
      · cases shape <;> simp [receiptSignature]

/-- Reading a shape of a valid receipt gives the receipt as far as the shape
carries it. -/
theorem receiptFrom_of_view {r : VerificationReceiptV2} {shape : Shape} {o : Obj}
    (h : ObjView (receiptShapeMembers r shape) o) (hposition : PositionValid r)
    (hbody : BodyValid r) : receiptFrom o = .ok (r.atShape shape) := by
  obtain ⟨hlog, hseq, hprev, hsig⟩ := receiptPlace_of_view h hposition
  obtain ⟨hagent, hhuman⟩ := optionalText_of_view h
  have hevaluators := evaluatorsFrom_of_view h
  have hmem {f : String × CJ} (hf : f ∈ receiptMembers r) : f ∈ receiptShapeMembers r shape :=
    mem_receiptShapeMembers hf
  have htext {k s : String} (hf : (k, CJ.str s) ∈ receiptMembers r) : o.str k = .ok s :=
    h.str_ok (hmem hf)
  have hversion : o.i64 "version" = .ok r.version :=
    h.i64_ok (hmem (by simp [receiptMembers])) (safe_version hbody.version)
  have hverified : o.i64 "verified_at" = .ok r.verifiedAt :=
    h.i64_ok (hmem (by simp [receiptMembers])) (safe_timestamp hbody.verifiedAt)
  have hissuers : o.strArray "issuer_ids" = .ok r.issuerIds :=
    h.strArray_ok (hmem (by simp [receiptMembers]))
  have hgranted : o.strArray "granted_scope" = .ok r.grantedScope :=
    h.strArray_ok (hmem (by simp [receiptMembers]))
  have hpolicy : o.optStr "context_policy_digest" = .ok r.contextPolicyDigest :=
    h.optStr_ok (hmem (by simp [receiptMembers]))
  have hevidence : evidenceFrom o = .ok r.statusEvidence := by
    obtain ⟨ns, hns, hden⟩ := h.array_ok
      (show ("status_evidence_digests", .arr (r.statusEvidence.map evidenceEntryCj)) ∈ _ from
        hmem (by simp [receiptMembers, evidenceCj]))
    rw [evidenceFrom, hns, ok_bind]
    exact mapM_of_denotes
      (fun e he _ hd => evidenceEntryFrom_of_denotes (hbody.evidence e he) hd) hden
  have hverifier : o.str "verifier_id" = .ok r.verifierId := htext (by simp [receiptMembers])
  have hbundle : o.str "bundle_hash" = .ok r.bundleHash := htext (by simp [receiptMembers])
  have hdecision : o.str "decision" = .ok r.decision := htext (by simp [receiptMembers])
  have hreason : o.str "decision_reason" = .ok r.decisionReason :=
    htext (by simp [receiptMembers])
  have hidentity : o.str "identity_status" = .ok r.identityStatus :=
    htext (by simp [receiptMembers])
  have htrust : o.str "trust_assessment" = .ok r.trustAssessment :=
    htext (by simp [receiptMembers])
  have hstatus : o.str "status_assessment" = .ok r.statusAssessment :=
    htext (by simp [receiptMembers])
  have hchallenge : o.str "challenge_assessment" = .ok r.challengeAssessment :=
    htext (by simp [receiptMembers])
  have hcontext : o.str "context_assessment" = .ok r.contextAssessment :=
    htext (by simp [receiptMembers])
  have hscope : o.str "required_scope" = .ok r.requiredScope := htext (by simp [receiptMembers])
  simp only [receiptFrom, hversion, hlog, hseq, hverifier, hagent, hhuman, hbundle, hissuers,
    hdecision, hreason, hidentity, htrust, hstatus, hchallenge, hevaluators, hcontext, hpolicy,
    hverified, hscope, hgranted, hevidence, hprev, hsig, ok_bind]
  cases shape <;> rfl

/-! ## Prepared bodies -/

theorem bodyValid_atGenesis_iff {r : VerificationReceiptV2} :
    BodyValid (bodyAtGenesis r) ↔ BodyValid r :=
  ⟨fun h => ⟨h.version, h.verifiedAt, h.verifierId, h.agentId, h.bundleHash, h.issuers,
      h.assessments⟩,
    fun h => ⟨h.version, h.verifiedAt, h.verifierId, h.agentId, h.bundleHash, h.issuers,
      h.assessments⟩⟩

theorem bodyValid_atEnd_iff {r : VerificationReceiptV2} :
    BodyValid (bodyAtEnd r) ↔ BodyValid r :=
  ⟨fun h => ⟨h.version, h.verifiedAt, h.verifierId, h.agentId, h.bundleHash, h.issuers,
      h.assessments⟩,
    fun h => ⟨h.version, h.verifiedAt, h.verifierId, h.agentId, h.bundleHash, h.issuers,
      h.assessments⟩⟩

/-- The log ID bodies are tried under. -/
theorem trialLogId_valid : (utf8 "0123456789abcdef0123456789abcdef").length = 32
    ∧ lowerHex "0123456789abcdef0123456789abcdef" = true := by
  decide

theorem positionValid_atGenesis (r : VerificationReceiptV2) :
    PositionValid (bodyAtGenesis r) :=
  { logId := trialLogId_valid.1, hex := trialLogId_valid.2
    sequence_pos := by simp [bodyAtGenesis], sequence_le := by simp [bodyAtGenesis, maxSafe]
    previous := rfl, link := rfl }

theorem positionValid_atEnd (r : VerificationReceiptV2) : PositionValid (bodyAtEnd r) :=
  { logId := trialLogId_valid.1, hex := trialLogId_valid.2
    sequence_pos := by simp [bodyAtEnd, maxSafe], sequence_le := by simp [bodyAtEnd]
    previous := rfl, link := rfl }

theorem signatureLengths_placeholder : SignatureLengths placeholderSignature := by
  constructor
  · exact List.length_replicate
  · exact List.length_replicate

/-- The wire form at the last position of a log fits. -/
def WireFits (r : VerificationReceiptV2) : Prop :=
  ∃ w, canonical (receiptCj (bodyAtEnd r) .wire) = .ok w
    ∧ w.length ≤ maxVerificationReceiptBytesV2

theorem encodeVerificationReceiptV2_eq_ok_iff {r : VerificationReceiptV2} {b : Bytes} :
    encodeVerificationReceiptV2 r = .ok b ↔
      PositionValid r ∧ BodyValid r ∧ SignatureLengths r.signature
        ∧ canonical (receiptCj r .wire) = .ok b ∧ b.length ≤ maxVerificationReceiptBytesV2 := by
  simp only [encodeVerificationReceiptV2, bind_eq_ok_iff (x := validateReceipt r true),
    bind_eq_ok_iff (x := canonical (receiptCj r .wire)), checkV2WireSize,
    refuseIf_bind_eq_ok_iff, Except.ok.injEq, decide_eq_false_iff_not, not_lt,
    validateReceipt_eq_ok_iff]
  constructor
  · rintro ⟨_, ⟨hposition, hbody, hsig⟩, data, hdata, hlen, rfl⟩
    exact ⟨hposition, hbody, hsig trivial, hdata, hlen⟩
  · rintro ⟨hposition, hbody, hsig, hdata, hlen⟩
    exact ⟨(), ⟨hposition, hbody, fun _ => hsig⟩, b, hdata, hlen, rfl⟩

/-- Exactly the receipts with a valid body that fits signed at the end of a log
have a prepared body. -/
theorem verificationReceiptV2Body_eq_ok_iff {r : VerificationReceiptV2} {b : Bytes} :
    verificationReceiptV2Body r = .ok b ↔
      BodyValid r ∧ WireFits r ∧ canonical (receiptCj r .body) = .ok b := by
  simp only [verificationReceiptV2Body,
    bind_eq_ok_iff (x := validateReceipt (bodyAtGenesis r) false),
    bind_eq_ok_iff (x := encodeVerificationReceiptV2 (bodyAtEnd r)),
    encodeVerificationReceiptV2_eq_ok_iff, validateReceipt_eq_ok_iff, bodyValid_atGenesis_iff,
    bodyValid_atEnd_iff, WireFits]
  constructor
  · rintro ⟨_, ⟨-, hbody, -⟩, w, ⟨-, -, -, hw, hlen⟩, hb⟩
    exact ⟨hbody, ⟨w, hw, hlen⟩, hb⟩
  · rintro ⟨hbody, ⟨w, hw, hlen⟩, hb⟩
    exact ⟨(), ⟨positionValid_atGenesis r, hbody, by simp⟩, w,
      ⟨positionValid_atEnd r, hbody, signatureLengths_placeholder, hw, hlen⟩, hb⟩

theorem receiptCj_eq (r : VerificationReceiptV2) (shape : Shape) :
    receiptCj r shape = .obj (receiptShapeMembers r shape) := rfl

/-- A body is no longer than the wire form at the end of a log. -/
theorem length_body_le {r : VerificationReceiptV2} {b w : Bytes}
    (hb : canonical (receiptCj r .body) = .ok b)
    (hw : canonical (receiptCj (bodyAtEnd r) .wire) = .ok w) : b.length ≤ w.length := by
  have hbody := length_canonical_obj hb
  have hwire := length_canonical_obj hw
  have hmembers : receiptMembers (bodyAtEnd r) = receiptMembers r := rfl
  have hoptional : receiptOptional (bodyAtEnd r) = receiptOptional r := rfl
  simp only [hmembers, hoptional, receiptPosition, receiptSignature, List.map_append,
    List.sum_append, List.append_nil, List.length_append] at hbody hwire
  have hsome : 0 < (receiptMembers r).length := by simp [receiptMembers]
  omega

/-- The required members of a shape. -/
def shapeFields : Shape → List String
  | .body => receiptBodyFields
  | .signable => receiptSignableFields
  | .wire => receiptFields

/-- A shape has the members its reader requires and no others. -/
theorem shapeFields_of_view {r : VerificationReceiptV2} {shape : Shape} {o : Obj}
    (h : ObjView (receiptShapeMembers r shape) o) :
    o.require (shapeFields shape) ["context_policy_digest"] = .ok ()
      ∧ o.only (withOptional (shapeFields shape)) = .ok () := by
  constructor
  · refine h.require_nullable_ok _ _ ?_ fun f hf hnull => ?_
    · cases shape <;>
        simp [shapeFields, receiptBodyFields, receiptSignableFields, receiptFields,
          receiptShapeMembers, receiptMembers, receiptPosition, receiptSignature]
    · rw [receiptShapeMembers_null hf hnull]
      exact List.mem_singleton_self _
  · refine h.only_ok _ fun f hf => ?_
    have hshared : ∀ k ∈ receiptBodyFields, k ∈ shapeFields shape := by
      cases shape <;>
        simp [shapeFields, receiptBodyFields, receiptSignableFields, receiptFields]
    rcases mem_receiptShapeMembers_keys (List.mem_map_of_mem hf) with h | ⟨h, -⟩ | ⟨h, -⟩
      | ⟨h, -⟩ | h | h
    · refine List.mem_append_left _ (hshared _ ?_)
      revert h
      generalize f.1 = k
      simp [receiptMembers, receiptBodyFields]
      grind
    · simp [h, withOptional]
    · simp [h, withOptional]
    · simp [h, withOptional]
    · refine List.mem_append_left _ ?_
      revert h
      generalize f.1 = k
      cases shape with
      | body => exact fun h => absurd h List.not_mem_nil
      | signable =>
        simp [receiptPosition, shapeFields, receiptSignableFields]
        grind
      | wire =>
        simp [receiptPosition, shapeFields, receiptSignableFields, receiptFields]
        grind
    · refine List.mem_append_left _ ?_
      revert h
      generalize f.1 = k
      cases shape with
      | body => exact fun h => absurd h List.not_mem_nil
      | signable => exact fun h => absurd h List.not_mem_nil
      | wire =>
        simp [receiptSignature, shapeFields, receiptFields]
        exact .inr

/-- A prepared body decodes to the receipt it was prepared from. -/
theorem decodeVerificationReceiptBodyV2_body {r : VerificationReceiptV2} {b : Bytes}
    (h : verificationReceiptV2Body r = .ok b) :
    decodeVerificationReceiptBodyV2 b = .ok (r.atShape .body) := by
  obtain ⟨hbody, ⟨w, hw, hlen⟩, hb⟩ := verificationReceiptV2Body_eq_ok_iff.mp h
  have hsize : checkV2WireSize b "verification receipt body"
      "MAX_VERIFICATION_RECEIPT_BODY_BYTES_V2" maxVerificationReceiptBodyBytesV2 = .ok () := by
    have hle := (length_body_le hb hw).trans hlen
    rw [checkV2WireSize, refuseIf_eq_ok_iff, decide_eq_false_iff_not, not_lt]
    exact hle
  have hposition : PositionValid (bodyAtGenesis r) := positionValid_atGenesis r
  have hmembers : receiptCj r .body = .obj (receiptShapeMembers (bodyAtGenesis r) .body) := rfl
  have hdoc := wireDocument_receipt hposition (bodyValid_atGenesis_iff.mpr hbody) .body
  rw [hmembers] at hb
  obtain ⟨n, hn, hd⟩ := (hdoc.fewerBytes (List.nil_subset _)).parseWire_ok hb
  obtain ⟨o, ho, hview⟩ := objView_of_denotes hd hdoc.keys
  have hfrom : receiptFrom o = .ok (r.atShape .body) :=
    receiptFrom_of_view (r := bodyAtGenesis r) hview hposition
      (bodyValid_atGenesis_iff.mpr hbody)
  obtain ⟨hrequire, honly⟩ := shapeFields_of_view hview
  simp only [shapeFields] at hrequire honly
  have hsame : verificationReceiptV2Body (r.atShape .body) = .ok b := h
  have hrest : { r.atShape .body with signature := noSignature } = r.atShape .body := rfl
  have hcontext : withContext (verificationReceiptV2Body (r.atShape .body))
      "wire v2: verification receipt body is invalid or noncanonical" = .ok b :=
    withContext_eq_ok_iff.mpr hsame
  simp only [decodeVerificationReceiptBodyV2, classify_eq_ok_iff, hsize, hn, ho, hrequire, honly,
    hfrom, ok_bind, hrest, hcontext, ↓reduceIte]

/-! ## Short receipts -/

/-- The names of the members of a receipt take little of its text. -/
theorem textLength_receiptCj_le (r : VerificationReceiptV2) (shape : Shape) :
    textLength (receiptCj r shape) ≤ itemsLength ((receiptMembers r ++ receiptOptional r
      ++ receiptPosition r shape ++ receiptSignature r shape).map Prod.snd) + 640 := by
  have hmembers : ∀ k ∈ (receiptMembers r).map Prod.fst, (encodeString k.toList).length ≤ 25 := by
    show ∀ k ∈ ["bundle_hash", "challenge_assessment", "context_assessment",
      "context_policy_digest", "decision", "decision_reason", "granted_scope", "identity_status",
      "issuer_ids", "required_scope", "status_assessment", "status_evidence_digests",
      "trust_assessment", "verified_at", "verifier_id", "version"], _
    decide +kernel
  have hrest : ∀ k ∈ ["agent_id", "human_id", "constraint_evaluators", "log_id",
      "previous_receipt_hash", "sequence", "signature"], (encodeString k.toList).length ≤ 25 := by
    decide +kernel
  have hoptional : (receiptOptional r).length ≤ 3 ∧ ∀ f ∈ receiptOptional r,
      f.1 ∈ ["agent_id", "human_id", "constraint_evaluators"] := by
    unfold receiptOptional
    split_ifs <;> simp
  have hplaced : (receiptPosition r shape ++ receiptSignature r shape).length ≤ 4
      ∧ ∀ f ∈ receiptPosition r shape ++ receiptSignature r shape,
        f.1 ∈ ["log_id", "previous_receipt_hash", "sequence", "signature"] := by
    cases shape <;> simp [receiptPosition, receiptSignature]
  have hcount : (receiptMembers r).length = 16 := rfl
  have hnames : ∀ f ∈ receiptMembers r ++ receiptOptional r ++ receiptPosition r shape
      ++ receiptSignature r shape, (encodeString f.1.toList).length ≤ 25 := by
    intro f hf
    rw [List.append_assoc, List.mem_append, List.mem_append] at hf
    obtain (hf | hf) | hf := hf
    · exact hmembers f.1 (List.mem_map_of_mem hf)
    · exact hrest f.1 (List.mem_append_left _ (hoptional.2 f hf))
    · exact hrest f.1 (List.mem_append_right ["agent_id", "human_id", "constraint_evaluators"]
        (hplaced.2 f hf))
  have htext := membersLength_le hnames
  have hlength := hplaced.1
  rw [List.length_append] at hlength
  simp only [List.length_append] at htext
  simp only [receiptCj, textLength, List.length_append]
  omega

theorem length_prefixedDigest_le {d : String} (h : validPrefixedDigest d = true) :
    (encodeString d.toList).length ≤ 620 := by
  simp only [validPrefixedDigest, Bool.and_eq_true, beq_iff_eq, List.length_drop] at h
  have hprefix : (utf8 "sha384:").length = 7 := rfl
  have hlength : (utf8 d).length ≤ 103 := by
    have := h.2.1
    omega
  exact length_encodeString_utf8_le hlength

/-- A valid receipt whose members are few and short. -/
structure ShortReceipt (r : VerificationReceiptV2) : Prop where
  position : PositionValid r
  body : BodyValid r
  signature : SignatureLengths r.signature
  words : ∀ s ∈ [r.challengeAssessment, r.contextAssessment, r.decision, r.decisionReason,
    r.identityStatus, r.requiredScope, r.statusAssessment, r.trustAssessment], (utf8 s).length ≤ 64
  human : r.humanId = ""
  evaluators : r.constraintEvaluators = []
  policy : ∀ d, r.contextPolicyDigest = some d → validPrefixedDigest d = true
  issuers : textLength (CJ.strs r.issuerIds) ≤ 512
  granted : textLength (CJ.strs r.grantedScope) ≤ 512
  evidence : textLength (evidenceCj r.statusEvidence) ≤ 2048

theorem ShortReceipt.textLength_le {r : VerificationReceiptV2} (h : ShortReceipt r) :
    textLength (receiptCj r .wire) ≤ 16000 := by
  have hwords : ∀ s ∈ [r.challengeAssessment, r.contextAssessment, r.decision, r.decisionReason,
      r.identityStatus, r.requiredScope, r.statusAssessment, r.trustAssessment],
      (encodeString s.toList).length ≤ 386 :=
    fun s hs => length_encodeString_utf8_le (h.words s hs)
  simp only [List.forall_mem_cons] at hwords
  obtain ⟨h₁, h₂, h₃, h₄, h₅, h₆, h₇, h₈, -⟩ := hwords
  have hverifier := length_id_le h.body.verifierId
  have hbundle := length_prefixedDigest_le h.body.bundleHash
  have hlog := length_encodeString_utf8_le h.position.logId.le
  have hversion : (encodeInt 2).length = 1 := rfl
  have hsequence := length_encodeInt_le ⟨h.position.sequence_pos.le, h.position.sequence_le⟩
  have hverified := length_encodeInt_le ⟨h.body.verifiedAt.1,
    h.body.verifiedAt.2.trans (by decide : v2MaxTimestampSeconds ≤ maxSafe)⟩
  have hpolicy : textLength (r.contextPolicyDigest.elim .null .str) ≤ 620 := by
    cases hd : r.contextPolicyDigest with
    | none => simp [textLength]
    | some d =>
      simp only [Option.elim_some, textLength]
      exact length_prefixedDigest_le (h.policy d hd)
  have hagent : itemsLength ((receiptOptional r).map Prod.snd) ≤ 387 := by
    rw [receiptOptional, if_pos h.human, if_pos h.evaluators]
    obtain hnone | hid := h.body.agentId
    · simp [hnone, itemsLength]
    · have hlength := length_id_le hid
      simp only [validV2Id_ne_empty hid, ↓reduceIte, List.append_nil, List.map_cons, List.map_nil,
        itemsLength, textLength]
      omega
  have hnames := textLength_receiptCj_le r .wire
  rw [List.map_append, List.map_append, List.map_append, itemsLength_append, itemsLength_append,
    itemsLength_append] at hnames
  have hissuers := h.issuers
  have hgranted := h.granted
  have hevidence := h.evidence
  simp only [receiptMembers, receiptPosition, receiptSignature, List.map_cons, List.map_nil,
    itemsLength, textLength_sig h.signature, h.body.version] at hnames
  simp only [textLength, h.position.previous, hversion] at hnames
  omega

end RatifyProtocol.V2
