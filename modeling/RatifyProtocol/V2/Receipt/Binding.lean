import RatifyProtocol.V2.Receipt.Signing
set_option autoImplicit false

/-!
# Receipts: what a prepared body is bound to

A body is tried under a stand-in log position and a placeholder signature.  At
every open head of its verifier's log, under every signature of the two lengths,
the receipt it becomes is no longer than that trial, so it encodes, and it has the
same body.
-/

namespace RatifyProtocol.V2

open Foundation

/-! ## Bytes of ASCII text -/

/-- The UTF-8 bytes of the canonical text of a value. -/
def valueBytes (v : CJ) : Nat :=
  match write v with
  | .ok t => (utf8Chars t).length
  | .error _ => 0

theorem memberBytes_eq (k : String) {v : CJ} {t : List Char} (h : write v = .ok t) :
    memberBytes (k, v) = (utf8Chars (encodeString k.toList)).length + 1 + valueBytes v := by
  have hcolon : (String.utf8EncodeChar ':').length = 1 := rfl
  simp only [memberBytes, valueBytes, h, memberText, utf8Chars_append, utf8Chars_cons,
    List.length_append, hcolon]
  omega

theorem valueBytes_canonical {v : CJ} {b : Bytes} (h : canonical v = .ok b) :
    valueBytes v = b.length := by
  simp only [canonical, bind_eq_ok_iff, Except.ok.injEq] at h
  obtain ⟨t, ht, rfl⟩ := h
  simp only [valueBytes, ht]

theorem length_utf8EncodeChar_ascii {c : Char} (h : c.toNat < 128) :
    (String.utf8EncodeChar c).length = 1 := by
  rw [String.length_utf8EncodeChar, Char.utf8Size_eq_one_iff]
  exact UInt32.le_iff_toNat_le.mpr (Nat.le_of_lt_succ h)

theorem length_utf8Chars_ascii {cs : List Char} (h : ∀ c ∈ cs, c.toNat < 128) :
    (utf8Chars cs).length = cs.length := by
  induction cs with
  | nil => rfl
  | cons c cs ih =>
    rw [utf8Chars_cons, List.length_append, length_utf8EncodeChar_ascii (h c (by simp)),
      ih fun d hd => h d (by simp [hd]), List.length_cons, Nat.add_comm]

/-! ## The members of a log position -/

/-- A character of a lowercase hexadecimal string is written as it is. -/
theorem encodeChar_of_lowerHex {c : Char}
    (h : ∀ b ∈ String.utf8EncodeChar c, (48 ≤ b && b ≤ 57 || 97 ≤ b && b ≤ 102) = true) :
    encodeChar c = [c] := by
  have hnot : ∀ d : Char, ((String.utf8EncodeChar d).all fun b =>
      48 ≤ b && b ≤ 57 || 97 ≤ b && b ≤ 102) = false → c ≠ d := by
    rintro d hd rfl
    rw [List.all_eq_true.mpr h] at hd
    cases hd
  have hcontrol : ¬ c.toNat < 0x20 := by
    intro hlt
    have key : ∀ n : Fin 32, ((String.utf8EncodeChar (Char.ofNat n)).all fun b =>
        48 ≤ b && b ≤ 57 || 97 ≤ b && b ≤ 102) = false := by decide
    exact hnot (Char.ofNat c.toNat) (key ⟨c.toNat, hlt⟩) (Char.ofNat_toNat c).symm
  have hseparator : c.toNat ≠ 0x2028 ∧ c.toNat ≠ 0x2029 := by
    constructor <;> intro heq
    · exact hnot (Char.ofNat 0x2028) (by decide) (by rw [← heq, Char.ofNat_toNat])
    · exact hnot (Char.ofNat 0x2029) (by decide) (by rw [← heq, Char.ofNat_toNat])
  simp only [encodeChar, hnot '"' (by decide), hnot '\\' (by decide), hnot '\x08' (by decide),
    hnot '\t' (by decide), hnot '\n' (by decide), hnot '\x0c' (by decide),
    hnot '\r' (by decide), hseparator.1, hseparator.2, hcontrol, ↓reduceIte]

theorem valueBytes_lowerHex {s : String} (h : lowerHex s = true) :
    valueBytes (.str s) = (utf8 s).length + 2 := by
  have hquote : (String.utf8EncodeChar '"').length = 1 := rfl
  have hplain : ∀ cs : List Char, (∀ b ∈ utf8Chars cs,
      (48 ≤ b && b ≤ 57 || 97 ≤ b && b ≤ 102) = true) → cs.flatMap encodeChar = cs := by
    intro cs hcs
    induction cs with
    | nil => rfl
    | cons c cs ih =>
      rw [List.flatMap_cons, encodeChar_of_lowerHex fun b hb => hcs b (by simp [hb]),
        ih fun b hb => hcs b (by simp [hb])]
      rfl
  have hsame := hplain s.toList fun b hb => List.all_eq_true.mp h b hb
  simp only [valueBytes, write, encodeString, hsame, utf8Chars_append, utf8Chars_cons,
    List.length_append, hquote, utf8, List.cons_append, utf8Chars_nil, List.length_nil]
  omega

theorem valueBytes_bytes (b : Bytes) : valueBytes (.bytes b) = (b.length + 2) / 3 * 4 + 2 := by
  have hdigit : ∀ n : Fin 64,
      (encodeChar (Base64.digit n)).all (fun d => decide (d.toNat < 128)) = true := by decide
  have hpad : (encodeChar '=').all (fun d => decide (d.toNat < 128)) = true := by decide
  have hascii : ∀ c ∈ encodeString (Base64.encodeChars b), c.toNat < 128 := by
    intro c hc
    simp only [encodeString, List.cons_append, List.mem_cons, List.mem_append, List.mem_flatMap,
      List.not_mem_nil, or_false] at hc
    rcases hc with rfl | ⟨d, hd, hc⟩ | rfl
    · decide
    · rcases Base64.mem_encodeChars hd with rfl | ⟨n, hn, rfl⟩
      · exact of_decide_eq_true (List.all_eq_true.mp hpad c hc)
      · exact of_decide_eq_true (List.all_eq_true.mp (hdigit ⟨n, hn⟩) c hc)
    · decide
  simp only [valueBytes, write]
  rw [length_utf8Chars_ascii hascii, length_encodeString_base64]

theorem toNat_lt_of_isDigit {c : Char} (h : c.isDigit = true) : c.toNat < 128 := by
  simp only [Char.isDigit, Bool.and_eq_true, decide_eq_true_eq, ge_iff_le, UInt32.le_iff_toNat_le]
    at h
  exact Nat.lt_of_le_of_lt h.2 (by decide)

theorem write_int {n : Int} (h : 0 ≤ n ∧ n ≤ maxSafe) : write (.int n) = .ok (encodeInt n) := by
  have hsafe : -maxSafe ≤ n ∧ n ≤ maxSafe := ⟨by have := h.1; simp only [maxSafe]; omega, h.2⟩
  simp only [write, if_pos hsafe]

theorem valueBytes_int {n : Int} (h : 0 ≤ n ∧ n ≤ maxSafe) :
    valueBytes (.int n) = (encodeInt n).length := by
  have hascii : ∀ c ∈ encodeInt n, c.toNat < 128 := by
    intro c hc
    rw [encodeInt_eq, if_neg (not_lt.mpr h.1), List.nil_append] at hc
    exact toNat_lt_of_isDigit (all_isDigit_toDigits _ c hc)
  simp only [valueBytes, write_int h]
  exact length_utf8Chars_ascii hascii

theorem memberBytes_bytes (k : String) (b : Bytes) :
    memberBytes (k, .bytes b)
      = (utf8Chars (encodeString k.toList)).length + 1 + ((b.length + 2) / 3 * 4 + 2) := by
  rw [memberBytes_eq k (t := encodeString (Base64.encodeChars b)) (by simp only [write]),
    valueBytes_bytes]

/-- Signatures of equal lengths take equally many bytes. -/
theorem valueBytes_sig {a b : HybridSignature} (ha : SignatureLengths a)
    (hb : SignatureLengths b) : valueBytes (CJ.sig a) = valueBytes (CJ.sig b) := by
  have hone : ∀ s : HybridSignature, ∃ w, canonical (CJ.sig s) = .ok w := fun s =>
    (wireValue_sig 1 s).exists_canonical
  obtain ⟨v, hv⟩ := hone a
  obtain ⟨w, hw⟩ := hone b
  have hv' := length_canonical_obj hv
  have hw' := length_canonical_obj hw
  simp only [List.map_cons, List.map_nil, memberBytes_bytes, ha.1, ha.2, hb.1, hb.2,
    List.length_cons] at hv' hw'
  rw [valueBytes_canonical hv, valueBytes_canonical hw, hv', hw']

/-! ## Every position is no longer than the trial -/

/-- Signed at any position of a log, a receipt is no longer than its trial at the end. -/
theorem length_wire_le {r : VerificationReceiptV2} {w end_ : Bytes} (hposition : PositionValid r)
    (hsignature : SignatureLengths r.signature) (hw : canonical (receiptCj r .wire) = .ok w)
    (hend : canonical (receiptCj (bodyAtEnd r) .wire) = .ok end_) : w.length ≤ end_.length := by
  have hlength := length_canonical_obj hw
  have htrial := length_canonical_obj hend
  have hmembers : receiptMembers (bodyAtEnd r) = receiptMembers r := rfl
  have hoptional : receiptOptional (bodyAtEnd r) = receiptOptional r := rfl
  have hlog : memberBytes ("log_id", .str r.logId)
      = memberBytes ("log_id", .str (bodyAtEnd r).logId) := by
    rw [memberBytes_eq "log_id" (v := .str r.logId) rfl,
      memberBytes_eq "log_id" (v := .str (bodyAtEnd r).logId) rfl,
      valueBytes_lowerHex hposition.hex, valueBytes_lowerHex (positionValid_atEnd r).hex,
      hposition.logId, (positionValid_atEnd r).logId]
  have hprevious : memberBytes ("previous_receipt_hash", .bytes r.previousReceiptHash)
      = memberBytes ("previous_receipt_hash", .bytes (bodyAtEnd r).previousReceiptHash) := by
    rw [memberBytes_bytes, memberBytes_bytes, hposition.previous, (positionValid_atEnd r).previous]
  have hsequence : memberBytes ("sequence", .int r.sequence)
      ≤ memberBytes ("sequence", .int (bodyAtEnd r).sequence) := by
    have hrange : 0 ≤ r.sequence ∧ r.sequence ≤ maxSafe :=
      ⟨hposition.sequence_pos.le, hposition.sequence_le⟩
    have hlast : (encodeInt maxSafe).length = 16 := by decide +kernel
    rw [memberBytes_eq "sequence" (write_int hrange),
      show (bodyAtEnd r).sequence = maxSafe from rfl,
      memberBytes_eq "sequence" (write_int ⟨by simp [maxSafe], le_refl maxSafe⟩),
      valueBytes_int hrange, valueBytes_int ⟨by simp [maxSafe], le_refl maxSafe⟩]
    have := length_encodeInt_le hrange
    omega
  have hsig : memberBytes ("signature", CJ.sig r.signature)
      = memberBytes ("signature", CJ.sig (bodyAtEnd r).signature) := by
    obtain ⟨t, ht⟩ := (wireValue_sig 1 r.signature).exists_write
    obtain ⟨u, hu⟩ := (wireValue_sig 1 (bodyAtEnd r).signature).exists_write
    rw [memberBytes_eq "signature" ht, memberBytes_eq "signature" hu,
      valueBytes_sig hsignature signatureLengths_placeholder]
    rfl
  simp only [hmembers, hoptional, receiptPosition, receiptSignature, List.map_append,
    List.sum_append, List.map_cons, List.map_nil, List.sum_cons, List.sum_nil,
    List.length_append, List.length_cons, List.length_nil] at hlength htrial
  omega

/-! ## Binding a decoded body -/

/-- A text decodes as a body exactly when it is the body of what it decodes to. -/
theorem decodeVerificationReceiptBodyV2_eq_ok {data : Bytes} {r : VerificationReceiptV2}
    (h : decodeVerificationReceiptBodyV2 data = .ok r) : verificationReceiptV2Body r = .ok data := by
  simp only [decodeVerificationReceiptBodyV2, classify_eq_ok_iff, bind_eq_ok_iff] at h
  obtain ⟨-, -, root, -, o, -, -, -, -, -, r', -, body, hbody, h⟩ := h
  split at h
  · rename_i heq
    obtain rfl := Except.ok.inj h
    rw [withContext_eq_ok_iff.mp hbody, heq]
  · cases h

/-- What the check of a log head finds. -/
theorem validateHead_eq_ok {logId : String} {sequence : Int} {headHash : Bytes}
    {accepted : List (Int × Bytes)} (h : validateHead logId sequence headHash accepted = .ok ()) :
    ((utf8 logId).length = 32 ∧ lowerHex logId = true) ∧ (0 ≤ sequence ∧ sequence ≤ maxSafe)
      ∧ headHash.length = 48 ∧ (sequence = 0 ↔ headHash.all (· == 0) = true) := by
  simp only [validateHead] at h
  split at h
  · cases h
  rename_i hplace
  split at h
  · cases h
  rename_i hgenesis
  clear h
  simp only [Bool.or_eq_true, decide_eq_true_eq, Bool.not_eq_true', Bool.and_eq_false_iff,
    decide_eq_false_iff_not, not_or, not_not, Bool.not_eq_false, not_le, not_lt,
    Bool.and_eq_true, beq_iff_eq, not_and, ne_eq] at hplace hgenesis
  obtain ⟨⟨⟨hlength, hhex⟩, hlow, hhigh⟩, hhash⟩ := hplace
  obtain ⟨hzero, hsome⟩ := hgenesis
  refine ⟨⟨hlength, hhex⟩, ⟨hlow, hhigh⟩, hhash, fun heq => (hzero heq).1, fun hall => ?_⟩
  by_contra hne
  exact hsome (by omega) hall

/-- An open head that can still grow gives the next position. -/
theorem positionValid_atHead {head : ReceiptV2Head} (r : VerificationReceiptV2)
    (signature : HybridSignature) (hhead : validateReceiptHead head = .ok ())
    (hroom : head.sequence < maxSafe) : PositionValid ((r.atHead head).signed signature) := by
  unfold validateReceiptHead at hhead
  split at hhead
  · cases hhead
  obtain ⟨⟨hlength, hhex⟩, ⟨hlow, -⟩, hhash, hzero⟩ := validateHead_eq_ok hhead
  refine
    { logId := hlength, hex := hhex, sequence_pos := ?_, sequence_le := ?_
      previous := hhash, link := ?_ }
  · exact Int.lt_add_one_of_le hlow
  · exact Int.add_one_le_of_lt hroom
  · show (head.sequence + 1 == 1 && !head.headHash.all (· == 0)
      || decide (head.sequence + 1 > 1) && head.headHash.all (· == 0)) = false
    by_cases hstart : head.sequence = 0
    · rw [hzero.mp hstart, hstart]
      rfl
    · have hnot : head.headHash.all (· == 0) = false :=
        Bool.eq_false_iff.mpr fun h => hstart (hzero.mpr h)
      have hnext : (head.sequence + 1 == 1) = false := by
        rw [beq_eq_false_iff_ne]
        omega
      rw [hnot, hnext]
      simp

/-- What becomes of a prepared body at the head of a log. -/
structure BoundBody (data : Bytes) (head : ReceiptV2Head) (r : VerificationReceiptV2)
    (signature : HybridSignature) (wire : Bytes) : Prop where
  bound : bindVerificationReceiptBodyV2 data head = .ok (r.atHead head)
  encoded : encodeVerificationReceiptV2 ((r.atHead head).signed signature) = .ok wire
  size : wire.length ≤ maxVerificationReceiptBytesV2
  decoded : decodeVerificationReceiptV2 wire = .ok ((r.atHead head).signed signature)
  body : verificationReceiptV2Body ((r.atHead head).signed signature) = .ok data

/-- A body that decodes binds to every open head of its verifier's log, and signed
there it encodes, decodes back and has the same body. -/
theorem exists_boundBody {data : Bytes} {head : ReceiptV2Head} {r : VerificationReceiptV2}
    {signature : HybridSignature} (hdecode : decodeVerificationReceiptBodyV2 data = .ok r)
    (hhead : validateReceiptHead head = .ok ()) (hopen : head.frozen = false)
    (hroom : head.sequence < maxSafe) (hverifier : r.verifierId = head.verifierId)
    (hsignature : SignatureLengths signature) : ∃ wire, BoundBody data head r signature wire := by
  have hdata := decodeVerificationReceiptBodyV2_eq_ok hdecode
  obtain ⟨hvalid, ⟨trial, htrial, hfits⟩, -⟩ := verificationReceiptV2Body_eq_ok_iff.mp hdata
  have hposition := positionValid_atHead r signature hhead hroom
  have hplaced : BodyValid ((r.atHead head).signed signature) :=
    (bodyValid_atHead r head signature).mpr hvalid
  obtain ⟨wire, hwire⟩ := (wireDocument_receipt hposition hplaced .wire).exists_canonical
  have hsize : wire.length ≤ maxVerificationReceiptBytesV2 :=
    (length_wire_le hposition hsignature hwire htrial).trans hfits
  have hencoded : encodeVerificationReceiptV2 ((r.atHead head).signed signature) = .ok wire :=
    encodeVerificationReceiptV2_eq_ok_iff.mpr ⟨hposition, hplaced, hsignature, hwire, hsize⟩
  have hbound := bindVerificationReceiptBodyV2_ok hdata hhead hopen hroom.ne hverifier
    (positionValid_atHead r noSignature hhead hroom)
  exact ⟨wire,
    { bound := hbound, encoded := hencoded, size := hsize
      decoded := decodeVerificationReceiptV2_encode hencoded, body := hdata }⟩

end RatifyProtocol.V2
