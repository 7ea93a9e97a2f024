import RatifyProtocol.V2.Receipt.Codec
import RatifyProtocol.V2.WireCodec
set_option autoImplicit false

/-!
# Key rotation: statements

The wire object of `v2/rotation.rs`: one canonical body that the replaced key
authorizes under code 0x0004 and the replacing key signs under code 0x0009.
-/

namespace RatifyProtocol.V2

open Foundation

/-- `32 << 10`. -/
def maxKeyRotationStatementBytesV2 : Nat := 32768

/-- Continuity proof from a caller-authenticated current key to a replacement. -/
structure KeyRotationStatementV2 where
  version : Int
  authorityId : String
  recoveryEpoch : Int
  role : String
  sequence : Int
  previousStatementHash : Bytes
  oldKey : HybridPublicKey
  newKey : HybridPublicKey
  oldKeyId : String
  newKeyId : String
  issuedAt : Int
  notBefore : Int
  oldSignature : HybridSignature
  newSignature : HybridSignature
  deriving DecidableEq, Repr

/-- The members of a signable body. -/
def rotationSignableFields : List String :=
  ["version", "authority_id", "recovery_epoch", "role", "sequence", "previous_statement_hash",
    "old_key", "new_key", "old_key_id", "new_key_id", "issued_at", "not_before"]

def rotationFields : List String := rotationSignableFields ++ ["old_signature", "new_signature"]

def validRole (role : String) : Bool :=
  role == "organization_root" || role == "issuer" || role == "agent"

def sigLen (sig : HybridSignature) : V2Result Unit :=
  refuseIf (sig.ed25519.length != 64 || sig.mlDsa65.length != 3309)
    "signature must contain 64-byte Ed25519 and 3309-byte ML-DSA-65 components"

variable (P : Primitives)

/-- The key checks of `validate_statement`: both IDs name distinct complete keys. -/
def validateStatementKeys (s : KeyRotationStatementV2) : V2Result Unit := do
  let oldId ← withContext (keyIdV2 P s.oldKey) "wire v2: old_key"
  let newId ← withContext (keyIdV2 P s.newKey) "wire v2: new_key"
  if oldId ≠ s.oldKeyId ∨ newId ≠ s.newKeyId then
    err .keyIdMismatch "wire v2: rotation key IDs must match distinct complete keys"
  else
    refuseIf (oldId == newId || equalKeys s.oldKey s.newKey)
      "wire v2: rotation key IDs must match distinct complete keys"

/-- The signature lengths, checked only on a signed statement. -/
def validateStatementSignatures (s : KeyRotationStatementV2) (signatures : Bool) : V2Result Unit :=
  if signatures then do
    withContext (sigLen s.oldSignature) "wire v2: old_signature"
    withContext (sigLen s.newSignature) "wire v2: new_signature"
  else .ok ()

def validateStatement (s : KeyRotationStatementV2) (signatures : Bool) : V2Result Unit := do
  refuseIf (s.version != 2) "wire v2: rotation version must be 2"
  refuseIf ((utf8 s.authorityId).length != 32 || !lowerHex s.authorityId)
    "wire v2: authority_id must be 32 lowercase hexadecimal characters"
  refuseIf (decide (s.recoveryEpoch ≤ 0) || decide (s.recoveryEpoch > maxSafe)
      || decide (s.sequence ≤ 0) || decide (s.sequence > maxSafe))
    "wire v2: recovery_epoch and sequence must be positive safe integers"
  refuseIf (!validV2Timestamp s.issuedAt || !validV2Timestamp s.notBefore)
    "wire v2: issued_at and not_before must be safe integers"
  refuseIf (!validRole s.role) "wire v2: rotation role is invalid"
  refuseIf (s.previousStatementHash.length != 48)
    "wire v2: previous_statement_hash must be 48 bytes"
  refuseIf (s.sequence == 1 && !s.previousStatementHash.all (· == 0))
    "wire v2: genesis rotation must use a zero previous_statement_hash"
  refuseIf (decide (s.sequence > 1) && s.previousStatementHash.all (· == 0))
    "wire v2: non-genesis rotation must link to a prior statement"
  refuseIf (!validV2Id s.oldKeyId || !validV2Id s.newKeyId)
    "wire v2: old_key_id and new_key_id must be 64 lowercase hexadecimal characters"
  validateStatementKeys P s
  validateStatementSignatures s signatures

/-- The members of a statement without its signatures. -/
def statementBody (s : KeyRotationStatementV2) : List (String × CJ) :=
  [("authority_id", .str s.authorityId), ("issued_at", .int s.issuedAt),
    ("new_key", CJ.key s.newKey), ("new_key_id", .str s.newKeyId),
    ("not_before", .int s.notBefore), ("old_key", CJ.key s.oldKey),
    ("old_key_id", .str s.oldKeyId), ("previous_statement_hash", .bytes s.previousStatementHash),
    ("recovery_epoch", .int s.recoveryEpoch), ("role", .str s.role),
    ("sequence", .int s.sequence), ("version", .int s.version)]

def statementCj (s : KeyRotationStatementV2) (signatures : Bool) : CJ :=
  .obj (statementBody s ++ if signatures then
    [("old_signature", CJ.sig s.oldSignature), ("new_signature", CJ.sig s.newSignature)] else [])

def statementFrom (o : Obj) : V2Result KeyRotationStatementV2 := do
  let version ← o.i64 "version"
  let authorityId ← o.str "authority_id"
  let recoveryEpoch ← o.i64 "recovery_epoch"
  let role ← o.str "role"
  let sequence ← o.i64 "sequence"
  let previousStatementHash ← o.bytes "previous_statement_hash"
  let oldKey ← o.pubKey "old_key"
  let newKey ← o.pubKey "new_key"
  let oldKeyId ← o.str "old_key_id"
  let newKeyId ← o.str "new_key_id"
  let issuedAt ← o.i64 "issued_at"
  let notBefore ← o.i64 "not_before"
  let oldSignature ← o.sig "old_signature"
  let newSignature ← o.sig "new_signature"
  .ok { version, authorityId, recoveryEpoch, role, sequence, previousStatementHash, oldKey, newKey,
        oldKeyId, newKeyId, issuedAt, notBefore, oldSignature, newSignature }

def validateRotationSignableBody (body : Bytes) : V2Result Unit := do
  let root ← parseWire body ["previous_statement_hash"] []
  let o ← obj root
  withContext (o.require rotationSignableFields []) "rotation signable body"
  withContext (o.only rotationSignableFields) "rotation signable body"
  let s ← statementFrom o
  let own ← canonical (statementCj s false)
  refuseIf (own != body) "rotation signable body must use RatifyCanonicalJSON"
  withContext (validateStatement P s false) "rotation signable body"

/-- Canonical signable body shared by both rotation signatures. -/
def keyRotationStatementV2SignableBytes (s : KeyRotationStatementV2) : V2Result Bytes := do
  validateStatement P s false
  canonical (statementCj s false)

/-! ## Valid statements -/

/-- What `validate_statement` asks of a statement without its signatures. -/
structure StatementValid (s : KeyRotationStatementV2) : Prop where
  version : s.version = 2
  authorityId : (utf8 s.authorityId).length = 32
  hex : lowerHex s.authorityId = true
  epoch_pos : 0 < s.recoveryEpoch
  epoch_le : s.recoveryEpoch ≤ maxSafe
  sequence_pos : 0 < s.sequence
  sequence_le : s.sequence ≤ maxSafe
  issuedAt : 0 ≤ s.issuedAt ∧ s.issuedAt ≤ v2MaxTimestampSeconds
  notBefore : 0 ≤ s.notBefore ∧ s.notBefore ≤ v2MaxTimestampSeconds
  role : validRole s.role = true
  previous : s.previousStatementHash.length = 48
  genesis : (s.sequence == 1 && !s.previousStatementHash.all (· == 0)) = false
  link : (decide (s.sequence > 1) && s.previousStatementHash.all (· == 0)) = false
  ids : validV2Id s.oldKeyId = true ∧ validV2Id s.newKeyId = true
  keys : validateStatementKeys P s = .ok ()

theorem sigLen_eq_ok_iff {sig : HybridSignature} {u : Unit} :
    sigLen sig = .ok u ↔ SignatureLengths sig := by
  simp only [sigLen, refuseIf_eq_ok_iff, Bool.or_eq_false_iff, bne_eq_false_iff_eq, SignatureLengths]

theorem validateStatementSignatures_eq_ok_iff {s : KeyRotationStatementV2} {signatures : Bool}
    {u : Unit} :
    validateStatementSignatures s signatures = .ok u ↔
      (signatures = true → SignatureLengths s.oldSignature ∧ SignatureLengths s.newSignature) := by
  cases signatures with
  | false => simp [validateStatementSignatures]
  | true =>
    simp only [validateStatementSignatures, ↓reduceIte, bind_eq_ok_iff, withContext_eq_ok_iff,
      sigLen_eq_ok_iff, forall_const]
    constructor
    · intro h
      obtain ⟨-, hold, hnew⟩ := h
      exact ⟨hold, hnew⟩
    · intro h
      exact ⟨(), h.1, h.2⟩

variable {P}

theorem validateStatement_eq_ok_iff {s : KeyRotationStatementV2} {signatures : Bool} {u : Unit} :
    validateStatement P s signatures = .ok u ↔
      StatementValid P s
        ∧ (signatures = true → SignatureLengths s.oldSignature ∧ SignatureLengths s.newSignature) := by
  simp only [validateStatement, refuseIf_bind_eq_ok_iff,
    bind_eq_ok_iff (x := validateStatementKeys P s),
    validateStatementSignatures_eq_ok_iff, Bool.or_eq_false_iff, bne_eq_false_iff_eq,
    Bool.not_eq_false', decide_eq_false_iff_not, not_le, not_lt, validV2Timestamp_iff]
  constructor
  · intro h
    obtain ⟨h₁, ⟨h₂, h₃⟩, ⟨⟨⟨h₄, h₅⟩, h₆⟩, h₇⟩, ⟨h₈, h₉⟩, h₁₀, h₁₁, h₁₂, h₁₃, h₁₄, ⟨⟩, h₁₅, h₁₆⟩ := h
    exact ⟨⟨h₁, h₂, h₃, h₄, h₅, h₆, h₇, h₈, h₉, h₁₀, h₁₁, h₁₂, h₁₃, h₁₄, h₁₅⟩, h₁₆⟩
  · intro h
    obtain ⟨⟨h₁, h₂, h₃, h₄, h₅, h₆, h₇, h₈, h₉, h₁₀, h₁₁, h₁₂, h₁₃, h₁₄, h₁₅⟩, h₁₆⟩ := h
    exact ⟨h₁, ⟨h₂, h₃⟩, ⟨⟨⟨h₄, h₅⟩, h₆⟩, h₇⟩, ⟨h₈, h₉⟩, h₁₀, h₁₁, h₁₂, h₁₃, h₁₄, (), h₁₅, h₁₆⟩

/-- Both IDs of a valid statement are those of its keys, and they differ. -/
theorem StatementValid.keyIds {s : KeyRotationStatementV2} (h : StatementValid P s) :
    keyIdV2 P s.oldKey = .ok s.oldKeyId ∧ keyIdV2 P s.newKey = .ok s.newKeyId
      ∧ s.oldKeyId ≠ s.newKeyId := by
  have hkeys := h.keys
  simp only [validateStatementKeys, bind_eq_ok_iff, withContext_eq_ok_iff] at hkeys
  obtain ⟨oldId, hold, newId, hnew, hids⟩ := hkeys
  split at hids
  · cases hids
  · rename_i hmatch
    rw [not_or, not_ne_iff, not_ne_iff] at hmatch
    obtain ⟨rfl, rfl⟩ := hmatch
    rw [refuseIf_eq_ok_iff, Bool.or_eq_false_iff, beq_eq_false_iff_ne] at hids
    exact ⟨hold, hnew, hids.1⟩

/-- The statement without its signatures, as its signable body is read. -/
def KeyRotationStatementV2.unsigned (s : KeyRotationStatementV2) : KeyRotationStatementV2 :=
  { s with oldSignature := noSignature, newSignature := noSignature }

theorem wireDocument_statement {s : KeyRotationStatementV2} (h : StatementValid P s)
    {topByte : List String} (hnamed : ∀ f ∈ statementBody s, f.1 ∈ topByte → ∃ b, f.2 = .bytes b) :
    WireDocument topByte [] (statementBody s) := by
  refine ⟨by simp [statementBody], ?_, ?_⟩
  · intro f hf
    refine .inl ?_
    revert f
    simp only [statementBody, List.forall_mem_cons]
    exact ⟨.str _ _, .int _ _ (safe_timestamp h.issuedAt), wireValue_key 14 _, .str _ _,
      .int _ _ (safe_timestamp h.notBefore), wireValue_key 14 _, .str _ _, .bytes _ _,
      .int _ _ (safe_sequence h.epoch_pos h.epoch_le), .str _ _,
      .int _ _ (safe_sequence h.sequence_pos h.sequence_le), .int _ _ (safe_version h.version),
      by simp⟩
  · intro f hf hbyte
    refine .inl ?_
    rcases hbyte with ⟨hwire, -⟩ | htop
    · have hbody : ∀ g ∈ statementBody s, g.1 ∉ wireByteFields := by
        simp [statementBody, wireByteFields]
      exact absurd hwire (hbody f hf)
    · exact hnamed f hf htop

/-- The canonical body is read back to the statement without its signatures. -/
theorem statementFrom_of_view {s : KeyRotationStatementV2} (h : StatementValid P s) {o : Obj}
    (hview : ObjView (statementBody s) o) : statementFrom o = .ok s.unsigned := by
  have hversion : o.i64 "version" = .ok s.version :=
    hview.i64_ok (by simp [statementBody]) (safe_version h.version)
  have hauthority : o.str "authority_id" = .ok s.authorityId := hview.str_ok (by simp [statementBody])
  have hepoch : o.i64 "recovery_epoch" = .ok s.recoveryEpoch :=
    hview.i64_ok (by simp [statementBody]) (safe_sequence h.epoch_pos h.epoch_le)
  have hrole : o.str "role" = .ok s.role := hview.str_ok (by simp [statementBody])
  have hsequence : o.i64 "sequence" = .ok s.sequence :=
    hview.i64_ok (by simp [statementBody]) (safe_sequence h.sequence_pos h.sequence_le)
  have hprevious : o.bytes "previous_statement_hash" = .ok s.previousStatementHash :=
    hview.bytes_ok (by simp [statementBody])
  have holdKey : o.pubKey "old_key" = .ok s.oldKey := hview.pubKey_ok (by simp [statementBody])
  have hnewKey : o.pubKey "new_key" = .ok s.newKey := hview.pubKey_ok (by simp [statementBody])
  have holdId : o.str "old_key_id" = .ok s.oldKeyId := hview.str_ok (by simp [statementBody])
  have hnewId : o.str "new_key_id" = .ok s.newKeyId := hview.str_ok (by simp [statementBody])
  have hissued : o.i64 "issued_at" = .ok s.issuedAt :=
    hview.i64_ok (by simp [statementBody]) (safe_timestamp h.issuedAt)
  have hbefore : o.i64 "not_before" = .ok s.notBefore :=
    hview.i64_ok (by simp [statementBody]) (safe_timestamp h.notBefore)
  have habsent : ∀ k, k ∉ (statementBody s).map Prod.fst → o.sig k = .ok noSignature := by
    intro k hk
    simp only [Obj.sig, Obj.pair, hview.present_absent hk, ok_bind]
    rfl
  have holdSig : o.sig "old_signature" = .ok noSignature := habsent _ (by simp [statementBody])
  have hnewSig : o.sig "new_signature" = .ok noSignature := habsent _ (by simp [statementBody])
  simp only [statementFrom, hversion, hauthority, hepoch, hrole, hsequence, hprevious, holdKey,
    hnewKey, holdId, hnewId, hissued, hbefore, holdSig, hnewSig, ok_bind]
  rfl

theorem statementFields_of_view {s : KeyRotationStatementV2} {o : Obj}
    (hview : ObjView (statementBody s) o) :
    o.require rotationSignableFields [] = .ok () ∧ o.only rotationSignableFields = .ok () := by
  constructor
  · apply hview.require_ok
    · simp [rotationSignableFields, statementBody]
    · simp [statementBody, CJ.key]
  · apply hview.only_ok
    simp [rotationSignableFields, statementBody]

theorem keyRotationStatementV2SignableBytes_eq_ok_iff {s : KeyRotationStatementV2} {b : Bytes} :
    keyRotationStatementV2SignableBytes P s = .ok b ↔
      StatementValid P s ∧ canonical (statementCj s false) = .ok b := by
  simp only [keyRotationStatementV2SignableBytes, bind_eq_ok_iff, validateStatement_eq_ok_iff]
  constructor
  · intro h
    obtain ⟨-, ⟨hvalid, -⟩, hb⟩ := h
    exact ⟨hvalid, hb⟩
  · intro h
    exact ⟨(), ⟨h.1, by simp⟩, h.2⟩

theorem statementCj_unsigned (s : KeyRotationStatementV2) :
    statementCj s false = .obj (statementBody s) := by
  simp only [statementCj, Bool.false_eq_true, ↓reduceIte, List.append_nil]

/-- A valid statement has a signable body. -/
theorem exists_rotationSignable {s : KeyRotationStatementV2} (h : StatementValid P s) :
    ∃ b, keyRotationStatementV2SignableBytes P s = .ok b := by
  have hdoc : WireDocument [] [] (statementBody s) := wireDocument_statement h (by simp)
  obtain ⟨b, hb⟩ := hdoc.exists_canonical
  rw [← statementCj_unsigned] at hb
  exact ⟨b, keyRotationStatementV2SignableBytes_eq_ok_iff.mpr ⟨h, hb⟩⟩

/-- A signable body determines everything but the signatures. -/
theorem unsigned_eq_of_rotationSignable {s s' : KeyRotationStatementV2} {b : Bytes}
    (h : keyRotationStatementV2SignableBytes P s = .ok b)
    (h' : keyRotationStatementV2SignableBytes P s' = .ok b) : s.unsigned = s'.unsigned := by
  obtain ⟨hvalid, hb⟩ := keyRotationStatementV2SignableBytes_eq_ok_iff.mp h
  obtain ⟨hvalid', hb'⟩ := keyRotationStatementV2SignableBytes_eq_ok_iff.mp h'
  have hdoc : WireDocument [] [] (statementBody s) := wireDocument_statement hvalid (by simp)
  have hdoc' : WireDocument [] [] (statementBody s') := wireDocument_statement hvalid' (by simp)
  rw [statementCj_unsigned] at hb hb'
  obtain ⟨n, o, hn, ho, -, hview⟩ := hdoc.exists_view hb
  obtain ⟨n', o', hn', ho', -, hview'⟩ := hdoc'.exists_view hb'
  obtain rfl := Except.ok.inj (hn.symm.trans hn')
  obtain rfl := Except.ok.inj (ho.symm.trans ho')
  exact Except.ok.inj
    ((statementFrom_of_view hvalid hview).symm.trans (statementFrom_of_view hvalid' hview'))

/-- The signable body of a statement passes its own check. -/
theorem validateRotationSignableBody_ok {s : KeyRotationStatementV2} {b : Bytes}
    (h : keyRotationStatementV2SignableBytes P s = .ok b) :
    validateRotationSignableBody P b = .ok () := by
  obtain ⟨hvalid, hb⟩ := keyRotationStatementV2SignableBytes_eq_ok_iff.mp h
  have hdoc : WireDocument ["previous_statement_hash"] [] (statementBody s) :=
    wireDocument_statement hvalid (by simp [statementBody])
  rw [statementCj_unsigned] at hb
  obtain ⟨n, o, hn, ho, -, hview⟩ := hdoc.exists_view hb
  have hfrom : statementFrom o = .ok s.unsigned := statementFrom_of_view hvalid hview
  obtain ⟨hrequire, honly⟩ := statementFields_of_view hview
  have hrequire' : withContext (o.require rotationSignableFields []) "rotation signable body"
      = .ok () := withContext_eq_ok_iff.mpr hrequire
  have honly' : withContext (o.only rotationSignableFields) "rotation signable body" = .ok () :=
    withContext_eq_ok_iff.mpr honly
  have hown : canonical (statementCj s.unsigned false) = .ok b := by
    rw [statementCj_unsigned]
    exact hb
  have hunsigned : withContext (validateStatement P s.unsigned false) "rotation signable body"
      = .ok () := by
    rw [withContext_eq_ok_iff, validateStatement_eq_ok_iff]
    exact ⟨⟨hvalid.version, hvalid.authorityId, hvalid.hex, hvalid.epoch_pos, hvalid.epoch_le,
      hvalid.sequence_pos, hvalid.sequence_le, hvalid.issuedAt, hvalid.notBefore, hvalid.role,
      hvalid.previous, hvalid.genesis, hvalid.link, hvalid.ids, hvalid.keys⟩, by simp⟩
  simp only [validateRotationSignableBody, hn, ho, hrequire', honly', hfrom, hown, hunsigned,
    ok_bind, refuseIf, bne_self_eq_false, Bool.false_eq_true, ↓reduceIte]

end RatifyProtocol.V2
