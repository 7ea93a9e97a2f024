import RatifyProtocol.V2.Receipt.Codec
import RatifyProtocol.V2.WireCodec
set_option autoImplicit false

/-!
# V2: witness entries

The wire object of `v2/witness.rs` (object code 0x0006): validation, canonical
encoding, strict decoding and the check of a signable body.
-/

namespace RatifyProtocol.V2

open Foundation

/-- `64 << 10`. -/
def maxWitnessEntryBytesV2 : Nat := 65536

/-- `16 << 10`. -/
def maxWitnessEntryDataBytesV2 : Nat := 16384

/-- One signed entry in a caller-operated witness log. -/
structure WitnessEntryV2 where
  version : Int
  logId : String
  sequence : Int
  prevHash : Bytes
  entryData : Bytes
  timestamp : Int
  witnessId : String
  signature : HybridSignature
  deriving DecidableEq, Repr

/-- The members of a signable body. -/
def witnessSignableFields : List String :=
  ["version", "log_id", "sequence", "prev_hash", "entry_data", "timestamp", "witness_id"]

def witnessFields : List String := witnessSignableFields ++ ["signature"]

/-- `validate` of an entry, with or without its signature. -/
def validateWitnessEntry (e : WitnessEntryV2) (signature : Bool) : V2Result Unit := do
  refuseIf (e.version != 2) "wire v2: witness entry version must be 2"
  refuseIf ((utf8 e.logId).length != 32 || !lowerHex e.logId)
    "wire v2: log_id must be 32 lowercase hexadecimal characters"
  refuseIf (decide (e.sequence ≤ 0) || decide (e.sequence > maxSafe)
      || !validV2Timestamp e.timestamp)
    "wire v2: sequence and timestamp must be safe integers"
  refuseIf (e.prevHash.length != 48) "wire v2: prev_hash must be 48 bytes"
  refuseIf (decide (e.entryData.length > maxWitnessEntryDataBytesV2))
    s!"wire v2: entry_data exceeds MAX_WITNESS_ENTRY_DATA_BYTES_V2 ({maxWitnessEntryDataBytesV2} bytes)"
  refuseIf (e.sequence == 1 && !e.prevHash.all (· == 0))
    "wire v2: genesis witness entry must use a zero prev_hash"
  refuseIf (decide (e.sequence > 1) && e.prevHash.all (· == 0))
    "wire v2: non-genesis witness entry must link to a prior entry"
  refuseIf (!validV2Id e.witnessId)
    "wire v2: witness_id must be a 64-character lowercase hexadecimal v2 key ID"
  refuseIf (signature && (e.signature.ed25519.length != 64 || e.signature.mlDsa65.length != 3309))
    "wire v2: signature must contain 64-byte Ed25519 and 3309-byte ML-DSA-65 components"

/-- The members of an entry without its signature. -/
def entryBody (e : WitnessEntryV2) : List (String × CJ) :=
  [("entry_data", .bytes e.entryData), ("log_id", .str e.logId), ("prev_hash", .bytes e.prevHash),
    ("sequence", .int e.sequence), ("timestamp", .int e.timestamp), ("version", .int e.version),
    ("witness_id", .str e.witnessId)]

/-- The members of an entry, signed or not. -/
def entryMembers (e : WitnessEntryV2) (signature : Bool) : List (String × CJ) :=
  entryBody e ++ if signature then [("signature", CJ.sig e.signature)] else []

def entryCj (e : WitnessEntryV2) (signature : Bool) : CJ := .obj (entryMembers e signature)

def entryFrom (o : Obj) : V2Result WitnessEntryV2 := do
  let version ← o.i64 "version"
  let logId ← o.str "log_id"
  let sequence ← o.i64 "sequence"
  let prevHash ← o.bytes "prev_hash"
  let entryData ← o.bytes "entry_data"
  let timestamp ← o.i64 "timestamp"
  let witnessId ← o.str "witness_id"
  let signature ← o.sig "signature"
  .ok { version, logId, sequence, prevHash, entryData, timestamp, witnessId, signature }

def validateWitnessSignableBody (body : Bytes) : V2Result Unit := do
  let root ← parseWire body [] []
  let o ← obj root
  withContext (o.require witnessSignableFields []) "witness signable body"
  withContext (o.only witnessSignableFields) "witness signable body"
  let e ← entryFrom o
  let own ← canonical (entryCj e false)
  refuseIf (own != body) "witness signable body must use RatifyCanonicalJSON"
  validateWitnessEntry e false

/-- Canonical signable body: every member but `signature`. -/
def witnessEntryV2SignableBytes (e : WitnessEntryV2) : V2Result Bytes := do
  validateWitnessEntry e false
  canonical (entryCj e false)

/-- Canonical wire bytes. -/
def encodeWitnessEntryV2 (e : WitnessEntryV2) : V2Result Bytes := do
  validateWitnessEntry e true
  let wire ← canonical (entryCj e true)
  checkV2WireSize wire "witness entry" "MAX_WITNESS_ENTRY_BYTES_V2" maxWitnessEntryBytesV2
  .ok wire

/-- Strictly decode one canonical entry. -/
def decodeWitnessEntryV2 (data : Bytes) : V2Result WitnessEntryV2 :=
  classify .malformed do
    checkV2WireSize data "witness entry" "MAX_WITNESS_ENTRY_BYTES_V2" maxWitnessEntryBytesV2
    let root ← parseWire data [] []
    let o ← obj root
    o.require witnessFields []
    o.only witnessFields
    let e ← entryFrom o
    validateWitnessEntry e true
    match encodeWitnessEntryV2 e with
    | .ok c =>
      if c = data then .ok e
      else plain "wire v2: witness entry is not canonical Ratify JSON"
    | .error _ => plain "wire v2: witness entry is not canonical Ratify JSON"

/-! ## Valid entries -/

/-- What `validate` asks of an entry without its signature. -/
structure WitnessEntryValid (e : WitnessEntryV2) : Prop where
  version : e.version = 2
  logId : (utf8 e.logId).length = 32
  hex : lowerHex e.logId = true
  sequence_pos : 0 < e.sequence
  sequence_le : e.sequence ≤ maxSafe
  timestamp : 0 ≤ e.timestamp ∧ e.timestamp ≤ v2MaxTimestampSeconds
  previous : e.prevHash.length = 48
  data : e.entryData.length ≤ maxWitnessEntryDataBytesV2
  genesis : (e.sequence == 1 && !e.prevHash.all (· == 0)) = false
  link : (decide (e.sequence > 1) && e.prevHash.all (· == 0)) = false
  witnessId : validV2Id e.witnessId = true

theorem validateWitnessEntry_eq_ok_iff {e : WitnessEntryV2} {signature : Bool} {u : Unit} :
    validateWitnessEntry e signature = .ok u ↔
      WitnessEntryValid e ∧ (signature = true → SignatureLengths e.signature) := by
  have hlengths : (signature && (e.signature.ed25519.length != 64
      || e.signature.mlDsa65.length != 3309)) = false
        ↔ (signature = true → SignatureLengths e.signature) := by
    cases signature <;> simp [SignatureLengths]
  simp only [validateWitnessEntry, refuseIf_bind_eq_ok_iff, refuseIf_eq_ok_iff, hlengths,
    Bool.or_eq_false_iff, bne_eq_false_iff_eq, Bool.not_eq_false', decide_eq_false_iff_not, not_le,
    not_lt, validV2Timestamp_iff]
  constructor
  · intro h
    obtain ⟨h₁, ⟨h₂, h₃⟩, ⟨⟨h₄, h₅⟩, h₆⟩, h₇, h₈, h₉, h₁₀, h₁₁, h₁₂⟩ := h
    exact ⟨⟨h₁, h₂, h₃, h₄, h₅, h₆, h₇, h₈, h₉, h₁₀, h₁₁⟩, h₁₂⟩
  · intro h
    obtain ⟨⟨h₁, h₂, h₃, h₄, h₅, h₆, h₇, h₈, h₉, h₁₀, h₁₁⟩, h₁₂⟩ := h
    exact ⟨h₁, ⟨h₂, h₃⟩, ⟨⟨h₄, h₅⟩, h₆⟩, h₇, h₈, h₉, h₁₀, h₁₁, h₁₂⟩

/-- The entry without its signature, as its signable body is read. -/
def WitnessEntryV2.unsigned (e : WitnessEntryV2) : WitnessEntryV2 :=
  { e with signature := noSignature }

/-- The entry as its members, signed or not, are read. -/
def WitnessEntryV2.read (e : WitnessEntryV2) (signature : Bool) : WitnessEntryV2 :=
  if signature then e else e.unsigned

theorem entryMembers_keys (e : WitnessEntryV2) (signature : Bool) :
    ((entryMembers e signature).map Prod.fst).Nodup := by
  cases signature <;> simp [entryMembers, entryBody]

theorem wireDocument_entry {e : WitnessEntryV2} (h : WitnessEntryValid e) (signature : Bool)
    {topByte : List String} (hnamed : ∀ f ∈ entryMembers e signature, f.1 ∉ topByte) :
    WireDocument topByte [] (entryMembers e signature) := by
  refine ⟨entryMembers_keys e signature, ?_, ?_⟩
  · intro f hf
    refine .inl ?_
    have hbody : ∀ g ∈ entryBody e, WireValue 15 g.2 := by
      simp only [entryBody, List.forall_mem_cons]
      exact ⟨.bytes _ _, .str _ _, .bytes _ _,
        .int _ _ (safe_sequence h.sequence_pos h.sequence_le), .int _ _ (safe_timestamp h.timestamp),
        .int _ _ (safe_version h.version), .str _ _, by simp⟩
    rcases List.mem_append.mp hf with hf | hf
    · exact hbody f hf
    · cases signature with
      | false => simp at hf
      | true =>
        obtain rfl := List.mem_singleton.mp hf
        exact wireValue_sig 14 _
  · intro f hf hbyte
    have hwire : f.1 ∈ wireByteFields := by
      rcases hbyte with ⟨hwire, -⟩ | htop
      · exact hwire
      · exact absurd htop (hnamed f hf)
    have hbody : ∀ g ∈ entryBody e, g.1 ∈ wireByteFields → ∃ b, g.2 = .bytes b := by
      simp [entryBody, wireByteFields]
    rcases List.mem_append.mp hf with hf | hf
    · exact .inl (hbody f hf hwire)
    · cases signature with
      | false => simp at hf
      | true =>
        obtain rfl := List.mem_singleton.mp hf
        simp [wireByteFields] at hwire

/-! ## Reading the members back -/

theorem entryFrom_of_view {e : WitnessEntryV2} (h : WitnessEntryValid e) {signature : Bool}
    {o : Obj} (hview : ObjView (entryMembers e signature) o) :
    entryFrom o = .ok (e.read signature) := by
  have hmem : ∀ f ∈ entryBody e, f ∈ entryMembers e signature :=
    fun f hf => List.mem_append_left _ hf
  have hversion : o.i64 "version" = .ok e.version :=
    hview.i64_ok (hmem _ (by simp [entryBody])) (safe_version h.version)
  have hlog : o.str "log_id" = .ok e.logId := hview.str_ok (hmem _ (by simp [entryBody]))
  have hsequence : o.i64 "sequence" = .ok e.sequence :=
    hview.i64_ok (hmem _ (by simp [entryBody])) (safe_sequence h.sequence_pos h.sequence_le)
  have hprevious : o.bytes "prev_hash" = .ok e.prevHash :=
    hview.bytes_ok (hmem _ (by simp [entryBody]))
  have hdata : o.bytes "entry_data" = .ok e.entryData :=
    hview.bytes_ok (hmem _ (by simp [entryBody]))
  have htimestamp : o.i64 "timestamp" = .ok e.timestamp :=
    hview.i64_ok (hmem _ (by simp [entryBody])) (safe_timestamp h.timestamp)
  have hwitness : o.str "witness_id" = .ok e.witnessId :=
    hview.str_ok (hmem _ (by simp [entryBody]))
  have hsignature : o.sig "signature" = .ok (e.read signature).signature := by
    cases signature with
    | true => exact hview.sig_ok (by simp [entryMembers, WitnessEntryV2.read])
    | false =>
      have habsent : o.present "signature" = none :=
        hview.present_absent (by simp [entryMembers, entryBody])
      simp only [Obj.sig, Obj.pair, habsent, ok_bind]
      rfl
  simp only [entryFrom, hversion, hlog, hsequence, hprevious, hdata, htimestamp, hwitness,
    hsignature, ok_bind]
  cases signature <;> rfl

theorem entryFields_of_view {e : WitnessEntryV2} {signature : Bool} {o : Obj}
    (hview : ObjView (entryMembers e signature) o) :
    o.require (if signature then witnessFields else witnessSignableFields) [] = .ok ()
      ∧ o.only (if signature then witnessFields else witnessSignableFields) = .ok () := by
  constructor
  · apply hview.require_ok
    · cases signature <;> simp [witnessFields, witnessSignableFields, entryMembers, entryBody]
    · cases signature <;> simp [entryMembers, entryBody, CJ.sig]
  · apply hview.only_ok
    cases signature <;> simp [witnessFields, witnessSignableFields, entryMembers, entryBody]

theorem encodeWitnessEntryV2_eq_ok_iff {e : WitnessEntryV2} {b : Bytes} :
    encodeWitnessEntryV2 e = .ok b ↔
      WitnessEntryValid e ∧ SignatureLengths e.signature ∧ canonical (entryCj e true) = .ok b
        ∧ b.length ≤ maxWitnessEntryBytesV2 := by
  simp only [encodeWitnessEntryV2, bind_eq_ok_iff, validateWitnessEntry_eq_ok_iff, checkV2WireSize,
    refuseIf_eq_ok_iff, decide_eq_false_iff_not, not_lt, Except.ok.injEq]
  constructor
  · intro h
    obtain ⟨-, ⟨hvalid, hsignature⟩, wire, hwire, -, hlength, rfl⟩ := h
    exact ⟨hvalid, hsignature trivial, hwire, hlength⟩
  · intro h
    obtain ⟨hvalid, hsignature, hwire, hlength⟩ := h
    exact ⟨(), ⟨hvalid, fun _ => hsignature⟩, b, hwire, (), hlength, rfl⟩

/-- The canonical text of an entry is read back to it. -/
theorem exists_entryView {e : WitnessEntryV2} (h : WitnessEntryValid e) (signature : Bool) {b : Bytes}
    (hb : canonical (entryCj e signature) = .ok b) :
    ∃ n o, parseWire b [] [] = .ok n ∧ obj n = .ok o ∧ ObjView (entryMembers e signature) o
      ∧ entryFrom o = .ok (e.read signature) := by
  have hdoc : WireDocument [] [] (entryMembers e signature) := wireDocument_entry h signature (by simp)
  obtain ⟨n, o, hn, ho, -, hview⟩ := hdoc.exists_view hb
  exact ⟨n, o, hn, ho, hview, entryFrom_of_view h hview⟩

/-- An encoded entry decodes to itself. -/
theorem decodeWitnessEntryV2_encode {e : WitnessEntryV2} {b : Bytes}
    (h : encodeWitnessEntryV2 e = .ok b) : decodeWitnessEntryV2 b = .ok e := by
  obtain ⟨hvalid, hsignature, hb, hlength⟩ := encodeWitnessEntryV2_eq_ok_iff.mp h
  have hsize : checkV2WireSize b "witness entry" "MAX_WITNESS_ENTRY_BYTES_V2"
      maxWitnessEntryBytesV2 = .ok () := by
    rw [checkV2WireSize, refuseIf_eq_ok_iff, decide_eq_false_iff_not, not_lt]
    exact hlength
  obtain ⟨n, o, hn, ho, hview, hfrom⟩ := exists_entryView hvalid true hb
  obtain ⟨hrequire, honly⟩ := entryFields_of_view hview
  simp only [WitnessEntryV2.read, ↓reduceIte] at hrequire honly hfrom
  have hchecked : validateWitnessEntry e true = .ok () :=
    validateWitnessEntry_eq_ok_iff.mpr ⟨hvalid, fun _ => hsignature⟩
  simp only [decodeWitnessEntryV2, classify_eq_ok_iff, hsize, hn, ho, hrequire, honly, hfrom,
    hchecked, h, ok_bind, ↓reduceIte]

/-! ## The signable body -/

theorem witnessEntryV2SignableBytes_eq_ok_iff {e : WitnessEntryV2} {b : Bytes} :
    witnessEntryV2SignableBytes e = .ok b ↔
      WitnessEntryValid e ∧ canonical (entryCj e false) = .ok b := by
  simp only [witnessEntryV2SignableBytes, bind_eq_ok_iff, validateWitnessEntry_eq_ok_iff]
  constructor
  · intro h
    obtain ⟨-, ⟨hvalid, -⟩, hb⟩ := h
    exact ⟨hvalid, hb⟩
  · intro h
    exact ⟨(), ⟨h.1, by simp⟩, h.2⟩

/-- A valid entry has a signable body. -/
theorem exists_witnessSignable {e : WitnessEntryV2} (h : WitnessEntryValid e) :
    ∃ b, witnessEntryV2SignableBytes e = .ok b := by
  have hdoc : WireDocument [] [] (entryMembers e false) := wireDocument_entry h false (by simp)
  obtain ⟨b, hb⟩ := hdoc.exists_canonical
  exact ⟨b, witnessEntryV2SignableBytes_eq_ok_iff.mpr ⟨h, hb⟩⟩

/-- A signable body determines everything but the signature. -/
theorem unsigned_eq_of_witnessSignable {e e' : WitnessEntryV2} {b : Bytes}
    (h : witnessEntryV2SignableBytes e = .ok b) (h' : witnessEntryV2SignableBytes e' = .ok b) :
    e.unsigned = e'.unsigned := by
  obtain ⟨hvalid, hb⟩ := witnessEntryV2SignableBytes_eq_ok_iff.mp h
  obtain ⟨hvalid', hb'⟩ := witnessEntryV2SignableBytes_eq_ok_iff.mp h'
  obtain ⟨n, o, hn, ho, -, hfrom⟩ := exists_entryView hvalid false hb
  obtain ⟨n', o', hn', ho', -, hfrom'⟩ := exists_entryView hvalid' false hb'
  obtain rfl := Except.ok.inj (hn.symm.trans hn')
  obtain rfl := Except.ok.inj (ho.symm.trans ho')
  exact Except.ok.inj (hfrom.symm.trans hfrom')

/-- The signable body of an entry passes its own check. -/
theorem validateWitnessSignableBody_ok {e : WitnessEntryV2} {b : Bytes}
    (h : witnessEntryV2SignableBytes e = .ok b) : validateWitnessSignableBody b = .ok () := by
  obtain ⟨hvalid, hb⟩ := witnessEntryV2SignableBytes_eq_ok_iff.mp h
  obtain ⟨n, o, hn, ho, hview, hfrom⟩ := exists_entryView hvalid false hb
  obtain ⟨hrequire, honly⟩ := entryFields_of_view hview
  simp only [WitnessEntryV2.read, Bool.false_eq_true, ↓reduceIte] at hrequire honly hfrom
  have hrequire' : withContext (o.require witnessSignableFields []) "witness signable body"
      = .ok () := withContext_eq_ok_iff.mpr hrequire
  have honly' : withContext (o.only witnessSignableFields) "witness signable body" = .ok () :=
    withContext_eq_ok_iff.mpr honly
  have hown : canonical (entryCj e.unsigned false) = .ok b := hb
  have hunsigned : validateWitnessEntry e.unsigned false = .ok () :=
    validateWitnessEntry_eq_ok_iff.mpr ⟨⟨hvalid.version, hvalid.logId, hvalid.hex,
      hvalid.sequence_pos, hvalid.sequence_le, hvalid.timestamp, hvalid.previous, hvalid.data,
      hvalid.genesis, hvalid.link, hvalid.witnessId⟩, by simp⟩
  simp only [validateWitnessSignableBody, hn, ho, hrequire', honly', hfrom, hown, hunsigned,
    ok_bind, refuseIf, bne_self_eq_false, Bool.false_eq_true, ↓reduceIte]

end RatifyProtocol.V2
